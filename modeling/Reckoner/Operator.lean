/-!
# Operators

The operators of expressions: what they compute, how tightly they bind, and to which side. The
signs `-` and `+` have two readings. As signs between two operands they subtract and add; in front
of one operand they stand for the operators `neg` and `pos`.
-/

namespace Reckoner

/-- Which of two equal neighbours binds first. -/
inductive Associativity where
  /-- The left one. -/
  | left
  /-- The right one. -/
  | right
  deriving DecidableEq, Repr

/-- What an operator does with one operand. -/
inductive UnaryOperation where
  /-- Changes the sign. -/
  | negate
  /-- Keeps the operand. -/
  | keep
  /-- Turns zero into one and all else into zero. -/
  | not
  deriving DecidableEq, Repr

/-- What an operator does with two operands. -/
inductive BinaryOperation where
  /-- The sum. -/
  | add
  /-- The difference. -/
  | subtract
  /-- The product. -/
  | multiply
  /-- The quotient. -/
  | divide
  /-- The remainder. -/
  | remainder
  /-- The power. -/
  | power
  /-- One if the left operand is greater, else zero. -/
  | greater
  /-- One if the left operand is less, else zero. -/
  | less
  /-- One if the left operand is greater or equal, else zero. -/
  | greaterEqual
  /-- One if the left operand is less or equal, else zero. -/
  | lessEqual
  /-- One if the operands are equal, else zero. -/
  | equal
  /-- One if the operands differ, else zero. -/
  | notEqual
  /-- One if neither operand is zero, else zero. -/
  | and
  /-- One if an operand is not zero, else zero. -/
  | or
  deriving DecidableEq, Repr

/-- What an operator computes, by the number of its operands. -/
inductive Operation where
  /-- An operation on one operand. -/
  | unary (operation : UnaryOperation)
  /-- An operation on two operands. -/
  | binary (operation : BinaryOperation)
  deriving DecidableEq, Repr

/-- A known operator. -/
structure Operator where
  /-- The sign it is written with, or the name of its reading in front of an operand. -/
  symbol : String
  /-- Its precedence: the higher one binds tighter. -/
  precedence : Nat
  /-- To which side it groups with operators of its precedence. -/
  associativity : Associativity
  /-- What it computes. -/
  operation : Operation
  deriving DecidableEq, Repr

namespace Operator

/-- The known operators, from the tightest to the loosest. -/
def table : List Operator :=
  [⟨"!", 7, .right, .unary .not⟩,
    ⟨"neg", 7, .right, .unary .negate⟩,
    ⟨"pos", 7, .right, .unary .keep⟩,
    ⟨"**", 6, .right, .binary .power⟩,
    ⟨"^", 6, .right, .binary .power⟩,
    ⟨"*", 5, .left, .binary .multiply⟩,
    ⟨"/", 5, .left, .binary .divide⟩,
    ⟨"%", 5, .left, .binary .remainder⟩,
    ⟨"+", 4, .left, .binary .add⟩,
    ⟨"-", 4, .left, .binary .subtract⟩,
    ⟨">", 3, .left, .binary .greater⟩,
    ⟨"<", 3, .left, .binary .less⟩,
    ⟨">=", 3, .left, .binary .greaterEqual⟩,
    ⟨"<=", 3, .left, .binary .lessEqual⟩,
    ⟨"==", 2, .left, .binary .equal⟩,
    ⟨"!=", 2, .left, .binary .notEqual⟩,
    ⟨"&&", 1, .left, .binary .and⟩,
    ⟨"||", 0, .left, .binary .or⟩]

/-- The operator of a symbol. -/
def find? (symbol : String) : Option Operator :=
  table.find? (·.symbol == symbol)

/-- The precedence of a symbol; an unknown one binds looser than every operator. -/
def precedenceOf (symbol : String) : Int :=
  match find? symbol with
  | some o => o.precedence
  | none => -1

/-- Whether a symbol groups to the left, as the unknown ones do. -/
def groupsLeft (symbol : String) : Bool :=
  match find? symbol with
  | some o => o.associativity == .left
  | none => true

/-- The operation on two operands that a symbol names. -/
def binary? (symbol : String) : Option BinaryOperation :=
  match find? symbol with
  | some ⟨_, _, _, .binary operation⟩ => some operation
  | _ => none

/-- The operator that a sign stands for in front of an operand, if it is another one there. -/
def frontForm? (symbol : String) : Option String :=
  if symbol == "-" then some "neg" else if symbol == "+" then some "pos" else none

end Operator

/-- The sign that stands in front of the operand. -/
def UnaryOperation.sign : UnaryOperation → String
  | .negate => "-"
  | .keep => "+"
  | .not => "!"

end Reckoner
