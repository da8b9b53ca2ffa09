import Reckoner.Output
import Reckoner.Settings

/-!
# The dialogue

Reads a line, answers it, and reads the next one, up to the exit line or the end of the input. A
line that holds only blanks is passed over. Blanks around the exit line do not matter, and an empty
exit line is an exit line, too.
-/

namespace Reckoner

/-- What a dialogue comes to. -/
structure Dialogue where
  /-- The output, prompts included. -/
  output : List Output
  /-- How many lines were evaluated. -/
  evaluated : Nat
  /-- The calculator at the end. -/
  calculator : Calculator

namespace Dialogue

/-- The line that answers an expression. -/
def answerTo (calculator : Calculator) (expression : String) : String :=
  match calculator.evaluate expression with
  | .ok (value, _) => Number.brief value
  | .error failure => failure.notice

/-- The dialogue over the lines of the input. -/
def run (settings : Settings) (calculator : Calculator) : List String → Dialogue
  | [] => ⟨[.prompt settings.prompt, .line ""], 0, calculator⟩
  | line :: lines =>
    if Text.trim line == settings.exitCommand then ⟨[.prompt settings.prompt], 0, calculator⟩
    else if Text.isAllBlank line then
      let rest := run settings calculator lines
      ⟨.prompt settings.prompt :: rest.output, rest.evaluated, rest.calculator⟩
    else
      let rest := run settings (calculator.after line) lines
      ⟨.prompt settings.prompt :: (calculator.events line).map .logged ++
          .line (answerTo calculator line) :: rest.output,
        rest.evaluated + 1, rest.calculator⟩

/-- The line that opens a dialogue. -/
def greeting (settings : Settings) : String :=
  settings.title ++ " " ++ settings.version ++ " (type '" ++ settings.exitCommand ++ "' to quit)"

/-- The prompts of a dialogue, one for each line that it asked for. -/
def prompts (dialogue : Dialogue) : List String :=
  dialogue.output.filterMap fun
    | .prompt text => some text
    | _ => none

/-- The answers of a dialogue, without its prompts. -/
def answers (dialogue : Dialogue) : String :=
  Output.answers (dialogue.output.filter fun
    | .prompt _ => false
    | _ => true)

end Dialogue

end Reckoner
