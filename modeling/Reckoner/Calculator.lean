import Reckoner.Evaluation
import Reckoner.Rpn
import Reckoner.Statement
import Reckoner.Token.Lexer

/-!
# The calculator

A calculator keeps variables between expressions. An expression that succeeds may assign its
value; one that fails leaves no trace.
-/

namespace Reckoner

/-- A calculator, by its variables. -/
structure Calculator where
  /-- The variables assigned so far. -/
  bindings : Bindings

/-- An expression with its value and how it came about. -/
structure Explanation where
  /-- The expression as given. -/
  expression : String
  /-- Its value. -/
  value : Float
  /-- Its tokens in reverse Polish order. -/
  rpn : List Token
  /-- The steps of the evaluation. -/
  steps : List Step
  /-- The name that the value was assigned to. -/
  assigned : Option String

/-- An expression made ready for evaluation. -/
structure Prepared where
  /-- The name to assign, if any. -/
  target : Option String
  /-- The tokens in reverse Polish order. -/
  rpn : List Token

/-- Makes an expression ready for evaluation. -/
def prepare (expression : String) : Except Failure Prepared := do
  let statement := Statement.ofTokens (Token.ofText expression)
  return ⟨statement.target, ← Rpn.arrange statement.body⟩

namespace Calculator

/-- A calculator without variables. -/
def fresh : Calculator := ⟨Bindings.empty⟩

/-- The calculator after a value was assigned, if there is a name for it. -/
def commit (calculator : Calculator) (target : Option String) (value : Float) : Calculator :=
  match target with
  | some name => ⟨calculator.bindings.set name value⟩
  | none => calculator

/-- The value of an expression, and the calculator after it. -/
def evaluate (calculator : Calculator) (expression : String) :
    Except Failure (Float × Calculator) := do
  let prepared ← prepare expression
  let value ← Reckoner.evaluate calculator.bindings prepared.rpn
  return (value, calculator.commit prepared.target value)

/-- The value of an expression with its explanation, and the calculator after it. -/
def explain (calculator : Calculator) (expression : String) :
    Except Failure (Explanation × Calculator) := do
  let prepared ← prepare expression
  let (value, steps) ← evaluateWithSteps calculator.bindings prepared.rpn
  return (⟨expression, value, prepared.rpn, steps, prepared.target⟩,
    calculator.commit prepared.target value)

/-- The calculator without its variables. -/
def reset (_ : Calculator) : Calculator := fresh

/-- The calculator after an expression: unchanged if the expression fails. -/
def after (calculator : Calculator) (expression : String) : Calculator :=
  match calculator.evaluate expression with
  | .ok (_, calculator) => calculator
  | .error _ => calculator

/-- What a calculator may be asked to do. -/
inductive Action where
  /-- To evaluate an expression. -/
  | evaluate (expression : String)
  /-- To explain an expression. -/
  | explain (expression : String)
  /-- To tell its variables. -/
  | bindings
  /-- To forget its variables. -/
  | reset
  /-- To tell its variables, in which the asker then sets a name. -/
  | editCopy (name : String) (value : Float)

/-- What a calculator answers. -/
inductive Answer where
  /-- The value of an expression, or its failure. -/
  | value (result : Except Failure Float)
  /-- The explanation of an expression, or its failure. -/
  | explanation (result : Except Failure Explanation)
  /-- Variables. -/
  | bindings (bindings : Bindings)
  /-- Nothing. -/
  | done

/-- The answer to an action, and the calculator after it. -/
def perform (calculator : Calculator) : Action → Answer × Calculator
  | .evaluate expression =>
    match calculator.evaluate expression with
    | .ok (value, calculator) => (.value (.ok value), calculator)
    | .error failure => (.value (.error failure), calculator)
  | .explain expression =>
    match calculator.explain expression with
    | .ok (explanation, calculator) => (.explanation (.ok explanation), calculator)
    | .error failure => (.explanation (.error failure), calculator)
  | .bindings => (.bindings calculator.bindings, calculator)
  | .reset => (.done, calculator.reset)
  | .editCopy name value => (.bindings (calculator.bindings.set name value), calculator)

/-- The answers to some actions in a row, each with the calculator after it. -/
def run (calculator : Calculator) : List Action → List (Answer × Calculator)
  | [] => []
  | action :: actions =>
    calculator.perform action :: run (calculator.perform action).2 actions

end Calculator

end Reckoner
