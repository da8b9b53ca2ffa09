import Reckoner.Failure
import Reckoner.Number.Remainder
import Reckoner.Operator

/-!
# Arithmetic on doubles

What the operators and the functions compute. Truth is one and falsehood zero, and every operand
but zero counts as true. A quotient fails only for divisor zero. A remainder, a power or a function
fails where it has no value, or an infinite one for finite operands; sums, differences, products
and quotients may leave the finite range.
-/

namespace Reckoner

/-- One for true and zero for false. -/
def truth (b : Bool) : Float :=
  if b then 1 else 0

/-- The value of an operation on one operand. -/
def UnaryOperation.apply : UnaryOperation → Float → Float
  | .negate, a => -a
  | .keep, a => a
  | .not, a => truth (a == 0)

/-- A result that is no number although all operands are, or infinite although all are finite. -/
def lacksValue (operands : List Float) (result : Float) : Bool :=
  (result.isNaN && operands.all (!·.isNaN)) || (result.isInf && operands.all (·.isFinite))

/-- The result, or the failure of the operation named `label` if it has no value. -/
def checked (label : String) (operands : List Float) (result : Float) : Except Failure Float :=
  if lacksValue operands result then .error (.mathDomain label operands) else .ok result

/-- The value of an operation on two operands; `symbol` names it in failures. -/
def BinaryOperation.apply (operation : BinaryOperation) (symbol : String) (a b : Float) :
    Except Failure Float :=
  match operation with
  | .add => .ok (a + b)
  | .subtract => .ok (a - b)
  | .multiply => .ok (a * b)
  | .divide => if b == 0 then .error .divisionByZero else .ok (a / b)
  | .remainder =>
    if b == 0 then .error .moduloByZero else checked symbol [a, b] (Number.remainder a b)
  | .power => checked symbol [a, b] (Float.pow a b)
  | .greater => .ok (truth (b < a))
  | .less => .ok (truth (a < b))
  | .greaterEqual => .ok (truth (b ≤ a))
  | .lessEqual => .ok (truth (a ≤ b))
  | .equal => .ok (truth (a == b))
  | .notEqual => .ok (truth (a != b))
  | .and => .ok (truth (a != 0 && b != 0))
  | .or => .ok (truth (a != 0 || b != 0))

/-- The value of the operator with a symbol on two operands. -/
def applyOperator (symbol : String) (a b : Float) : Except Failure Float :=
  match Operator.binary? symbol with
  | some operation => operation.apply symbol a b
  | none => .error (.unknownOperator symbol)

/-- The functions of one argument. -/
inductive MathFunction where
  /-- The sine. -/
  | sin
  /-- The cosine. -/
  | cos
  /-- The tangent. -/
  | tan
  /-- The square root. -/
  | sqrt
  /-- The absolute value. -/
  | abs
  /-- The decimal logarithm. -/
  | log
  /-- The natural logarithm. -/
  | ln
  /-- The exponential. -/
  | exp
  deriving DecidableEq, Repr

namespace MathFunction

/-- The name that a function is called by. -/
def name : MathFunction → String
  | .sin => "sin"
  | .cos => "cos"
  | .tan => "tan"
  | .sqrt => "sqrt"
  | .abs => "abs"
  | .log => "log"
  | .ln => "ln"
  | .exp => "exp"

/-- All functions. -/
def all : List MathFunction :=
  [.sin, .cos, .tan, .sqrt, .abs, .log, .ln, .exp]

/-- The function of a name. -/
def find? (name : String) : Option MathFunction :=
  all.find? (·.name == name)

/-- The double nearest to the value of a function, no number where it has no value. -/
def value : MathFunction → Float → Float
  | .sin, x => x.sin
  | .cos, x => x.cos
  | .tan, x => x.tan
  | .sqrt, x => x.sqrt
  | .abs, x => x.abs
  | .log, x => x.log10
  | .ln, x => x.log
  | .exp, x => x.exp

/-- The value of a function, or its failure. -/
def apply (f : MathFunction) (x : Float) : Except Failure Float :=
  checked f.name [x] (f.value x)

end MathFunction

/-- The value of the function with a name. -/
def applyFunction (name : String) (x : Float) : Except Failure Float :=
  match MathFunction.find? name with
  | some f => f.apply x
  | none => .error (.unknownIdentifier name)

/-- The ratio of a circle's circumference to its diameter. -/
def pi : Float := Number.ofRank false 0x400921FB54442D18

/-- The base of the natural logarithm. -/
def euler : Float := Number.ofRank false 0x4005BF0A8B145769

/-- The value of a constant. -/
def constant? (name : String) : Option Float :=
  if name == "pi" then some pi else if name == "e" then some euler else none

end Reckoner
