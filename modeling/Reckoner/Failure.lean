import Reckoner.Number.Written
import Reckoner.Text.Quoted

/-!
# Failures of a calculation

Each cause for which an expression has no value, with the kind it is reported under and the
message that explains it. Texts taken from the expression are quoted in messages.
-/

namespace Reckoner

/-- The kinds under which failures are reported. -/
inductive Failure.Kind where
  /-- Unbalanced parentheses. -/
  | syntaxError
  /-- A quotient with divisor zero. -/
  | divisionByZero
  /-- A remainder with divisor zero. -/
  | moduloByZero
  /-- A name that nothing is known by. -/
  | unknownIdentifier
  /-- A sign that is no operator. -/
  | unknownOperator
  /-- Too few operands. -/
  | stackUnderflow
  /-- Parts that do not make one expression. -/
  | malformedExpression
  /-- Operands for which an operation has no finite value. -/
  | mathDomain
  deriving DecidableEq, Repr

/-- The name of a kind. -/
def Failure.Kind.name : Failure.Kind → String
  | .syntaxError => "SyntaxError"
  | .divisionByZero => "DivisionByZero"
  | .moduloByZero => "ModuloByZero"
  | .unknownIdentifier => "UnknownIdentifier"
  | .unknownOperator => "UnknownOperator"
  | .stackUnderflow => "StackUnderflow"
  | .malformedExpression => "MalformedExpression"
  | .mathDomain => "MathDomain"

/-- Why an expression has no value. -/
inductive Failure where
  /-- A closing parenthesis without its opening one. -/
  | unexpectedClosing
  /-- An opening parenthesis without its closing one. -/
  | unclosedOpening
  /-- A quotient with divisor zero. -/
  | divisionByZero
  /-- A remainder with divisor zero. -/
  | moduloByZero
  /-- A name that is no variable, constant or function. -/
  | unknownIdentifier (name : String)
  /-- A sign that is no operator. -/
  | unknownOperator (symbol : String)
  /-- An operator or a function with fewer operands than it needs. -/
  | missingOperands (label : String) (needed held : Nat)
  /-- A number literal that is no number. -/
  | invalidNumber (text : String)
  /-- A parenthesis where only operands and operators may stand. -/
  | unexpectedToken (text : String)
  /-- A number of values other than one at the end. -/
  | leftOver (count : Nat)
  /-- Operands for which an operation has no value, or none that is finite. -/
  | mathDomain (label : String) (operands : List Float)

namespace Failure

/-- The kind of a failure. -/
def kind : Failure → Kind
  | .unexpectedClosing => .syntaxError
  | .unclosedOpening => .syntaxError
  | .divisionByZero => .divisionByZero
  | .moduloByZero => .moduloByZero
  | .unknownIdentifier _ => .unknownIdentifier
  | .unknownOperator _ => .unknownOperator
  | .missingOperands _ _ _ => .stackUnderflow
  | .invalidNumber _ => .malformedExpression
  | .unexpectedToken _ => .malformedExpression
  | .leftOver _ => .malformedExpression
  | .mathDomain _ _ => .mathDomain

/-- The explanation of a failure. -/
def message : Failure → String
  | .unexpectedClosing => "Mismatched parentheses: unexpected ')'"
  | .unclosedOpening => "Mismatched parentheses: unclosed '('"
  | .divisionByZero => "Division by zero"
  | .moduloByZero => "Modulo by zero"
  | .unknownIdentifier name => "Unknown identifier: " ++ Text.quoted name
  | .unknownOperator symbol => "Unknown operator: " ++ Text.quoted symbol
  | .missingOperands label needed held =>
    "Not enough operands for " ++ Text.quoted label ++ ": need " ++ Number.natural needed ++
      ", have " ++ Number.natural held
  | .invalidNumber text => "Invalid number literal: " ++ Text.quoted text
  | .unexpectedToken text => "Unexpected token in postfix sequence: " ++ Text.quoted text
  | .leftOver count => "Malformed expression: " ++ Number.natural count ++ " values left on the stack"
  | .mathDomain label operands =>
    "Math domain error in " ++ label ++ "(" ++ ", ".intercalate (operands.map Number.brief) ++ ")"

end Failure

end Reckoner
