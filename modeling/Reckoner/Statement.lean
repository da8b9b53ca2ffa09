import Reckoner.Token

/-!
# Statements

A line asks for the value of an expression, or assigns it: `x = 2 * 3` gives the value a name.
-/

namespace Reckoner

/-- An expression, and the name that its value is assigned to. -/
structure Statement where
  /-- The name to assign, if any. -/
  target : Option String
  /-- The tokens of the expression. -/
  body : List Token
  deriving DecidableEq, Repr

/-- The name that the first tokens assign to: a name in front of the sign `=`. -/
def Statement.targetOf? : List Token → Option String
  | head :: sign :: _ =>
    if head.kind = .identifier ∧ sign = .operator "=" then some head.text else none
  | _ => none

/-- The statement that tokens make. -/
def Statement.ofTokens (tokens : List Token) : Statement :=
  match targetOf? tokens with
  | some name => ⟨some name, tokens.drop 2⟩
  | none => ⟨none, tokens⟩

end Reckoner
