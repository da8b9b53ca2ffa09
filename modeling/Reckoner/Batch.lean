import Reckoner.Output

/-!
# Batches

Evaluates expressions one after the other with one calculator. Values are answers, failures are
complaints, and the batch goes on behind a failure.
-/

namespace Reckoner

/-- What a batch comes to. -/
structure Batch where
  /-- The output. -/
  output : List Output
  /-- Whether an expression failed. -/
  failed : Bool

namespace Batch

/-- The batch of some expressions. -/
def run (calculator : Calculator) : List String → Batch
  | [] => ⟨[], false⟩
  | expression :: rest =>
    let events := (calculator.events expression).map .logged
    let batch := run (calculator.after expression) rest
    match calculator.evaluate expression with
    | .ok (value, _) => ⟨events ++ .line (Number.brief value) :: batch.output, batch.failed⟩
    | .error failure => ⟨events ++ .complaint failure.notice :: batch.output, true⟩

/-- The exit status of a batch. -/
def status (batch : Batch) : Nat :=
  if batch.failed then 2 else 0

end Batch

end Reckoner
