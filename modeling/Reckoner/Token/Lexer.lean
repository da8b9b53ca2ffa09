import Reckoner.Token
import Reckoner.Text.Blank
import Reckoner.Text.DecimalDigit

/-!
# From text to tokens

Every text has tokens. Blanks are passed over; from any other character on, the longest lexeme is
taken: a number, a name, one of seven signs of two characters, or the character alone. A number is
a row of digits with at most one point, or a point with the digits behind it, if any.
-/

namespace Reckoner.Token

open Reckoner.Text

/-- The ASCII letters. -/
def isLetter (c : Char) : Bool :=
  ('a' ≤ c && c ≤ 'z') || ('A' ≤ c && c ≤ 'Z')

/-- The characters of a name behind its first letter. -/
def isNameChar (c : Char) : Bool :=
  isLetter c || isDigit c || c == '_'

/-- The signs of two characters. -/
def isDoubleSign (c d : Char) : Bool :=
  (d == '=' && (c == '>' || c == '<' || c == '=' || c == '!')) ||
    (c == d && (c == '&' || c == '|' || c == '*'))

/-- The length of the digits in front. -/
def digitRun (cs : List Char) : Nat :=
  (cs.takeWhile isDigit).length

/-- The length of the digits in front, of a point behind them, and of the digits behind that. -/
def numberRun (cs : List Char) : Nat :=
  match cs.dropWhile isDigit with
  | '.' :: rest => digitRun cs + 1 + digitRun rest
  | _ => digitRun cs

/-- The kind of the lexeme that starts with `c`, and how many of the characters behind `c` belong
to it. -/
def extent (c : Char) (rest : List Char) : Kind × Nat :=
  if isDigit c then (.number, numberRun rest)
  else if c == '.' then (.number, digitRun rest)
  else if isLetter c then (.identifier, (rest.takeWhile isNameChar).length)
  else if c == '(' then (.opening, 0)
  else if c == ')' then (.closing, 0)
  else if rest.head?.any (isDoubleSign c) then (.operator, 1)
  else (.operator, 0)

/-- The tokens of a row of characters. -/
def scan : List Char → List Token
  | [] => []
  | c :: cs =>
    if isBlank c then scan cs
    else
      let (kind, length) := extent c cs
      ⟨kind, String.ofList (c :: cs.take length)⟩ :: scan (cs.drop length)
termination_by cs => cs.length
decreasing_by all_goals grind

@[simp] theorem scan_nil : scan [] = [] := by
  rw [scan]

/-- A blank is passed over. -/
theorem scan_cons_of_isBlank {c : Char} {cs : List Char} (h : isBlank c = true) :
    scan (c :: cs) = scan cs := by
  rw [scan, if_pos h]

/-- From any other character on, a lexeme is taken. -/
theorem scan_cons_of_not_isBlank {c : Char} {cs : List Char} (h : isBlank c = false) :
    scan (c :: cs) =
      ⟨(extent c cs).1, String.ofList (c :: cs.take (extent c cs).2)⟩ ::
        scan (cs.drop (extent c cs).2) := by
  rw [scan, if_neg (by simp [h])]

/-- The tokens of a text. -/
def ofText (text : String) : List Token :=
  scan text.toList

end Reckoner.Token
