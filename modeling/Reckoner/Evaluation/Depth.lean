import Reckoner.Arithmetic
import Reckoner.Number.Reading
import Reckoner.Token

/-!
# The depth of the stack

How many values the stack holds behind each token does not depend on the values. Counting them
finds every failure of an evaluation but the numeric ones.
-/

namespace Reckoner.Depth

/-- The depth behind a token that needs `needed` values of the `depth` there are and leaves one in
their place, or the failure of the token named `label`. -/
def spend (label : String) (needed depth : Nat) : Except Failure Nat :=
  if depth < needed then .error (.missingOperands label needed depth) else .ok (depth - needed + 1)

/-- The depth behind a token, given which names are variables. -/
def step (isVariable : String → Bool) (depth : Nat) (token : Token) : Except Failure Nat :=
  match token.kind with
  | .number =>
    if (Number.read? token.text).isSome then .ok (depth + 1)
    else .error (.invalidNumber token.text)
  | .identifier =>
    if isVariable token.text || (constant? token.text).isSome then .ok (depth + 1)
    else if (MathFunction.find? token.text).isSome then spend token.text 1 depth
    else .error (.unknownIdentifier token.text)
  | .operator =>
    if ["neg", "pos", "!"].contains token.text then spend token.text 1 depth
    else if (Operator.binary? token.text).isSome then spend token.text 2 depth
    else .error (.unknownOperator token.text)
  | _ => .error (.unexpectedToken token.text)

/-- The depth behind some tokens. -/
def scan (isVariable : String → Bool) : Nat → List Token → Except Failure Nat
  | depth, [] => .ok depth
  | depth, token :: tokens =>
    match step isVariable depth token with
    | .ok depth => scan isVariable depth tokens
    | .error failure => .error failure

end Reckoner.Depth
