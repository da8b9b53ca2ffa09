import Reckoner.Arithmetic
import Reckoner.Grammar
import Reckoner.Number.Reading
import Reckoner.Bindings

/-!
# The value of an expression tree

The value of a tree is put together from the values of its parts, the left operand before the
right one. The first part that has no value tells why the whole has none.
-/

namespace Reckoner.Expression

/-- The value of an expression over some variables. A name stands for a variable before it stands
for a constant. -/
def denote (bindings : Bindings) : Expression → Except Failure Float
  | .number text =>
    match Number.read? text with
    | some value => .ok value
    | none => .error (.invalidNumber text)
  | .name word =>
    match bindings.get? word, constant? word with
    | some value, _ => .ok value
    | none, some value => .ok value
    | none, none => .error (.unknownIdentifier word)
  | .front sign operand => do
    let a ← operand.denote bindings
    if sign = "-" then return -a
    else if sign = "+" then return a
    else if sign = "!" then return truth (a == 0)
    else .error (.unknownOperator sign)
  | .between sign left right => do
    let a ← left.denote bindings
    let b ← right.denote bindings
    applyOperator sign a b
  | .group inner => inner.denote bindings
  | .call callee argument => do
    let x ← argument.denote bindings
    applyFunction callee x

/-- The names that stand for a value in an expression. -/
def names : Expression → List String
  | .number _ => []
  | .name word => [word]
  | .front _ operand => operand.names
  | .between _ left right => left.names ++ right.names
  | .group inner => inner.names
  | .call _ argument => argument.names

/-- The names that are called in an expression. -/
def callees : Expression → List String
  | .number _ => []
  | .name _ => []
  | .front _ operand => operand.callees
  | .between _ left right => left.callees ++ right.callees
  | .group inner => inner.callees
  | .call callee argument => argument.callees ++ [callee]

end Reckoner.Expression
