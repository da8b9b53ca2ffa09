import Reckoner.Batch
import Reckoner.CommandLine.Arguments
import Reckoner.Dialogue
import Reckoner.Report.Table

/-!
# The command line program

Three commands: a dialogue over the lines of the input, a batch of expressions, and the
explanation of one expression. Expressions come from the arguments, else from the input.
-/

namespace Reckoner.CommandLine

/-- What a command runs in. -/
structure Surroundings where
  /-- The environment variables, in the order in which they were set. -/
  environment : List (String × String)
  /-- The text of the input. -/
  input : String
  /-- The encoding of the terminal. -/
  encoding : Text.Encoding

/-- How a run of the program ends. -/
inductive Outcome where
  /-- The arguments name no command to carry out. -/
  | refused (refusal : Refusal)
  /-- The settings do not let the program start. -/
  | notStarted (failure : StartFailure)
  /-- A command was carried out. -/
  | finished (status : Nat) (answers complaints : String)

/-- The exit status of a command, and its output. -/
structure Result where
  /-- The exit status. -/
  status : Nat
  /-- The output. -/
  output : List Output

/-- Carries out the dialogue. -/
def runRepl (settings : Settings) (input : String) : Result :=
  let dialogue := Dialogue.run settings Calculator.fresh (Text.inputLines input)
  ⟨0, .line (Dialogue.greeting settings) :: dialogue.output⟩

/-- The expressions of a batch that come from the input: its lines that are not blank. -/
def inputExpressions (input : String) : List String :=
  (Text.batchLines input).filter (!Text.isAllBlank ·)

/-- Carries out a batch. -/
def runEval (expressions : List String) (input : String) : Result :=
  let expressions := if expressions.isEmpty then inputExpressions input else expressions
  if expressions.isEmpty then
    ⟨1, [.complaint "Błąd: podaj wyrażenie jako argument lub przez stdin"]⟩
  else
    let batch := Batch.run Calculator.fresh expressions
    ⟨batch.status, batch.output⟩

/-- Carries out an explanation. An empty argument counts as none. -/
def runRpn (encoding : Text.Encoding) (argument : Option String) (input : String) : Result :=
  let given := argument.getD ""
  let expression := if given.isEmpty then Text.trim input else given
  let events := (Calculator.fresh.events expression).map Output.logged
  match Calculator.fresh.explain expression with
  | .ok (explanation, _) =>
    ⟨0, events ++ (Report.explanationLines encoding explanation).map .line⟩
  | .error failure => ⟨2, events ++ [.complaint failure.notice]⟩

/-- Carries out a command. -/
def execute (settings : Settings) (encoding : Text.Encoding) (input : String) : Command → Result
  | .repl => runRepl settings input
  | .eval expressions => runEval expressions input
  | .rpn argument => runRpn encoding argument input

/-- Runs the program. The arguments are looked at first, then the settings. -/
def run (arguments : List String) (surroundings : Surroundings) : Outcome :=
  match parse arguments with
  | .error refusal => .refused refusal
  | .ok command =>
    match Settings.build surroundings.environment [] with
    | .error problems => .notStarted (.unsuitable problems)
    | .ok settings =>
      match settings.threshold with
      | .error failure => .notStarted failure
      | .ok threshold =>
        let input := String.ofList (Text.unifyLineEnds surroundings.input.toList)
        let result := execute settings surroundings.encoding input command
        .finished result.status (Output.answers result.output)
          (Output.complaints threshold result.output)

end Reckoner.CommandLine
