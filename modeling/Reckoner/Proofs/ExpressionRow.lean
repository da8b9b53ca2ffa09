import Reckoner.Output
import Reckoner.Proofs.CalculatorRun
import Reckoner.Proofs.LongestMatch

/-!
# Expressions in a row

What one calculator makes of expressions that it is given one after the other, and what of a row of
output stands on which stream. A line has no tokens exactly if it holds only blanks, so passing over
blank lines leaves out what no value could come of.
-/

namespace Reckoner

namespace Calculator

/-- The value or the failure that an answer gives, if it answers an evaluation. -/
def Answer.outcome? : Answer → Option (Except Failure Float)
  | .value outcome => some outcome
  | _ => none

/-- The outcomes of expressions that a calculator evaluates one after the other. -/
def outcomes (calculator : Calculator) (expressions : List String) :
    List (Except Failure Float) :=
  (calculator.run (expressions.map .evaluate)).filterMap (·.1.outcome?)

/-- An evaluation is answered by its value or failure, and leaves the calculator behind it. -/
theorem perform_evaluate (calculator : Calculator) (expression : String) :
    calculator.perform (.evaluate expression) =
      (.value ((calculator.evaluate expression).map Prod.fst), calculator.after expression) := by
  rw [perform, after]
  cases calculator.evaluate expression <;> rfl

/-- Behind the first expression the others are evaluated by the calculator that it leaves. -/
theorem outcomes_cons (calculator : Calculator) (expression : String) (rest : List String) :
    calculator.outcomes (expression :: rest) =
      (calculator.evaluate expression).map Prod.fst ::
        (calculator.after expression).outcomes rest := by
  rw [outcomes, List.map_cons, run, perform_evaluate]
  rfl

/-- Every expression has an outcome. -/
theorem length_outcomes (calculator : Calculator) (expressions : List String) :
    (calculator.outcomes expressions).length = expressions.length := by
  induction expressions generalizing calculator with
  | nil => rfl
  | cons expression rest ih => rw [outcomes_cons, List.length_cons, ih, List.length_cons]

/-- The calculator behind an expression goes on with the others. -/
theorem follow_evaluate_cons (calculator : Calculator) (expression : String) (rest : List String) :
    calculator.follow ((expression :: rest).map .evaluate) =
      (calculator.after expression).follow (rest.map .evaluate) := by
  rw [List.map_cons, follow, List.foldl_cons, perform_evaluate]
  rfl

end Calculator

/-- A line has no tokens exactly if it holds only blanks. -/
theorem Token.ofText_eq_nil_iff {line : String} :
    ofText line = [] ↔ Text.isAllBlank line = true := by
  have hkept := flatMap_scan line.toList
  constructor
  · intro hnone
    rw [← ofText, hnone, List.flatMap_nil, eq_comm, List.filter_eq_nil_iff] at hkept
    exact List.all_eq_true.mpr fun c hc => by simpa using hkept c hc
  · intro hblank
    have hscan := scan_append_of_forall (List.all_eq_true.mp hblank) []
    rwa [List.append_nil, scan_nil] at hscan

namespace Output

/-- The line of an answer that a piece of output is, if it is one. -/
def line? : Output → Option String
  | .line text => some text
  | _ => none

/-- The line of complaint that a piece of output is, if it is one. -/
def complaint? : Output → Option String
  | .complaint text => some text
  | _ => none

/-- Events for the log are nothing to a reader of other output. -/
theorem filterMap_logged (read : Output → Option String) (h : ∀ event, read (.logged event) = none)
    (events : List Event) : (events.map Output.logged).filterMap read = [] := by
  rw [List.filterMap_map, List.filterMap_eq_nil_iff]
  exact fun event _ => h event

end Output

end Reckoner
