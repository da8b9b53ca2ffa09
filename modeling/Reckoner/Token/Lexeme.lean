import Reckoner.Token.Lexer

/-!
# Lexemes

What a text must look like to be a token of a kind. A token is a lexeme that no longer lexeme at
the same place extends.
-/

namespace Reckoner.Token

open Reckoner.Text

/-- Digits, at least one, with at most one point behind the first of them; or a point with the
digits behind it, if any. -/
def IsNumber (cs : List Char) : Prop :=
  (cs ≠ [] ∧ ∀ c ∈ cs, isDigit c) ∨
    ∃ whole fraction, cs = whole ++ '.' :: fraction ∧ (∀ c ∈ whole, isDigit c) ∧
      ∀ c ∈ fraction, isDigit c

/-- A letter, and letters, digits and underscores behind it. -/
def IsName (cs : List Char) : Prop :=
  ∃ first rest, cs = first :: rest ∧ isLetter first ∧ ∀ c ∈ rest, isNameChar c

/-- A sign of two characters, or a character that is no blank and that no other lexeme starts
with. -/
def IsSign (cs : List Char) : Prop :=
  (∃ c d, cs = [c, d] ∧ isDoubleSign c d) ∨
    ∃ c, cs = [c] ∧ !isBlank c ∧ !isDigit c ∧ !isLetter c ∧ c ≠ '.' ∧ c ≠ '(' ∧ c ≠ ')'

/-- The lexemes of a kind. -/
def IsLexeme : Kind → List Char → Prop
  | .number, cs => IsNumber cs
  | .identifier, cs => IsName cs
  | .operator, cs => IsSign cs
  | .opening, cs => cs = ['(']
  | .closing, cs => cs = [')']

/-- A token whose text is a lexeme of its kind. -/
def IsValid (token : Token) : Prop :=
  IsLexeme token.kind token.text.toList

end Reckoner.Token
