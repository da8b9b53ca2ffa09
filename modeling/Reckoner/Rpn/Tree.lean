import Reckoner.Arithmetic
import Reckoner.Number.Reading
import Reckoner.Token
import Reckoner.Bindings

/-!
# Trees in reverse Polish notation

A row of tokens in reverse Polish notation writes a tree: leaves are values, and every inner node
stands behind its one or two operands. The value of a tree is computed from its leaves up.
-/

namespace Reckoner.Rpn

/-- A tree of tokens with at most two operands. -/
inductive Tree where
  /-- A value. -/
  | leaf (token : Token)
  /-- An operator or a function with its operand. -/
  | one (token : Token) (operand : Tree)
  /-- An operator with its operands. -/
  | two (token : Token) (left right : Tree)
  deriving DecidableEq, Repr

namespace Tree

/-- The tokens of a tree, each behind its operands. -/
def postOrder : Tree → List Token
  | .leaf token => [token]
  | .one token operand => operand.postOrder ++ [token]
  | .two token left right => left.postOrder ++ right.postOrder ++ [token]

/-- The value of a token that is a leaf: a number, a variable, or a constant. -/
def leafValue? (bindings : Bindings) (token : Token) : Option Float :=
  match token.kind with
  | .number => Number.read? token.text
  | .identifier => (bindings.get? token.text).or (constant? token.text)
  | _ => none

/-- The value of a token on one operand: one of the operators `neg`, `pos` and `!`, or a function
whose name is no variable and no constant. -/
def oneValue? (bindings : Bindings) (token : Token) (a : Float) : Option Float :=
  match token.kind with
  | .operator =>
    if token.text = "neg" then some (-a)
    else if token.text = "pos" then some a
    else if token.text = "!" then some (truth (a == 0))
    else none
  | .identifier =>
    match bindings.get? token.text, constant? token.text with
    | none, none => (applyFunction token.text a).toOption
    | _, _ => none
  | _ => none

/-- The value of an operator token on two operands. -/
def twoValue? (token : Token) (a b : Float) : Option Float :=
  if token.kind = .operator then (applyOperator token.text a b).toOption else none

/-- The value of a tree over some variables. -/
def value? (bindings : Bindings) : Tree → Option Float
  | .leaf token => leafValue? bindings token
  | .one token operand => (operand.value? bindings).bind (oneValue? bindings token)
  | .two token left right =>
    (left.value? bindings).bind fun a => (right.value? bindings).bind (twoValue? token a)

end Tree

end Reckoner.Rpn
