import Reckoner.Operator
import Reckoner.Token

/-!
# The grammar of expressions

Expressions as trees, and the rows of tokens that write them. The operators stand in levels, from
the loosest to the tightest: unknown signs, `||`, `&&`, equality, comparison, sums, products,
powers, and signs in front of an operand. All levels but the powers group to the left. Operands
are numbers, names, groups in parentheses, and names that are called with an argument in
parentheses.
-/

namespace Reckoner

/-- The tree of an expression. -/
inductive Expression where
  /-- A number literal. -/
  | number (text : String)
  /-- The name of a variable or a constant. -/
  | name (word : String)
  /-- A sign in front of its operand. -/
  | front (sign : String) (operand : Expression)
  /-- A sign between its operands. -/
  | between (sign : String) (left right : Expression)
  /-- An expression in parentheses. -/
  | group (inner : Expression)
  /-- A function with its argument. -/
  | call (callee : String) (argument : Expression)
  deriving DecidableEq, Repr

namespace Grammar

/-- The signs in front of an operand. -/
def frontSigns : List String := ["-", "+", "!"]

/-- The signs of the powers, which group to the right. -/
def powerSigns : List String := ["**", "^"]

/-- The signs of a level that groups to the left: level -1 has the signs of no operator. -/
def LeftSign (level : Int) (sign : String) : Prop :=
  (level = -1 ∧ sign ∉ Operator.table.map Operator.symbol) ∨
    (level = 0 ∧ sign ∈ ["||"]) ∨ (level = 1 ∧ sign ∈ ["&&"]) ∨
    (level = 2 ∧ sign ∈ ["==", "!="]) ∨ (level = 3 ∧ sign ∈ [">", "<", ">=", "<="]) ∨
    (level = 4 ∧ sign ∈ ["+", "-"]) ∨ (level = 5 ∧ sign ∈ ["*", "/", "%"])

/-- The tokens that write an expression at a level. Expressions in parentheses start again at the
level `loosest`. -/
inductive Derives (loosest : Int) : Int → List Token → Expression → Prop where
  /-- What a tighter level derives, a looser one does, too. -/
  | tighter {level : Int} {tokens : List Token} {e : Expression} (below : level < 7)
      (inner : Derives loosest (level + 1) tokens e) : Derives loosest level tokens e
  /-- Signs that group to the left. -/
  | leftward {level : Int} {sign : String} {before behind : List Token} {l r : Expression}
      (known : LeftSign level sign) (left : Derives loosest level before l)
      (right : Derives loosest (level + 1) behind r) :
      Derives loosest level (before ++ .operator sign :: behind) (.between sign l r)
  /-- Powers, which group to the right. -/
  | rightward {sign : String} {before behind : List Token} {l r : Expression}
      (known : sign ∈ powerSigns) (left : Derives loosest 7 before l)
      (right : Derives loosest 6 behind r) :
      Derives loosest 6 (before ++ .operator sign :: behind) (.between sign l r)
  /-- A sign in front of its operand. -/
  | front {sign : String} {tokens : List Token} {e : Expression} (known : sign ∈ frontSigns)
      (operand : Derives loosest 7 tokens e) :
      Derives loosest 7 (.operator sign :: tokens) (.front sign e)
  /-- A number literal. -/
  | number (text : String) : Derives loosest 7 [.number text] (.number text)
  /-- A name. -/
  | name (word : String) : Derives loosest 7 [.identifier word] (.name word)
  /-- An expression in parentheses. -/
  | group {tokens : List Token} {e : Expression} (inner : Derives loosest loosest tokens e) :
      Derives loosest 7 (.opening :: tokens ++ [.closing]) (.group e)
  /-- A function with its argument. -/
  | call (callee : String) {tokens : List Token} {e : Expression}
      (argument : Derives loosest loosest tokens e) :
      Derives loosest 7 (.identifier callee :: .opening :: tokens ++ [.closing]) (.call callee e)

end Grammar

/-- The tokens of an expression with each operand before its operator and each argument before its
function; the signs in front of an operand have the names of their own operators. -/
def Expression.postOrder : Expression → List Token
  | .number text => [.number text]
  | .name word => [.identifier word]
  | .front sign operand =>
    operand.postOrder ++
      [.operator (if sign = "-" then "neg" else if sign = "+" then "pos" else sign)]
  | .between sign left right => left.postOrder ++ right.postOrder ++ [.operator sign]
  | .group inner => inner.postOrder
  | .call callee argument => argument.postOrder ++ [.identifier callee]

end Reckoner
