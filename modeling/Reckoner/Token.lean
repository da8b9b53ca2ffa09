/-!
# Tokens

The lexemes of an expression. A token keeps its text as written; the kind tells what role the
text plays.
-/

namespace Reckoner

/-- The role of a token. -/
inductive Token.Kind where
  /-- A number literal. -/
  | number
  /-- An operator sign, known or not. -/
  | operator
  /-- The name of a variable, a constant or a function. -/
  | identifier
  /-- An opening parenthesis. -/
  | opening
  /-- A closing parenthesis. -/
  | closing
  deriving DecidableEq, Repr

/-- A lexeme with its role. -/
structure Token where
  /-- The role of the lexeme. -/
  kind : Token.Kind
  /-- The lexeme as written. -/
  text : String
  deriving DecidableEq, Repr

namespace Token

/-- A number literal. -/
def number (text : String) : Token := ⟨.number, text⟩

/-- An operator sign. -/
def operator (text : String) : Token := ⟨.operator, text⟩

/-- A name. -/
def identifier (text : String) : Token := ⟨.identifier, text⟩

/-- The opening parenthesis. -/
def opening : Token := ⟨.opening, "("⟩

/-- The closing parenthesis. -/
def closing : Token := ⟨.closing, ")"⟩

/-- The texts of tokens with a space between neighbours. -/
def joinTexts (tokens : List Token) : String :=
  " ".intercalate (tokens.map Token.text)

end Token

end Reckoner
