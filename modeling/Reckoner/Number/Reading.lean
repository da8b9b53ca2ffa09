import Reckoner.Number.Decimal
import Reckoner.Text.Blank
import Reckoner.Text.DecimalDigit

/-!
# Reading doubles

A number text is an optional sign and either a name (`inf`, `infinity`, `nan` in any case) or a
decimal: digits with at most one point among them and an optional power of ten behind the mark
`e`. Blanks may surround it, one underscore may stand between two digits, and the decimal digits
of every script count as digits. The value is the double nearest to the decimal.
-/

namespace Reckoner.Number

open Reckoner.Text

/-- The number that a number text stands for. -/
inductive Numeral where
  /-- A decimal with its sign. -/
  | decimal (negative : Bool) (value : Decimal)
  /-- Infinity with its sign. -/
  | infinity (negative : Bool)
  /-- No number; its sign is lost. -/
  | notANumber

/-- The double that a numeral stands for. -/
def Numeral.toFloat : Numeral → Float
  | .decimal negative value => ofRank negative value.rank
  | .infinity negative => ofRank negative infinityRank
  | .notANumber => Number.notANumber

/-- The ASCII character that a character of a number text is read as: a space for the blanks beyond
ASCII, the digit of the same value for the digits of all scripts. -/
def plainChar (c : Char) : Char :=
  if c.toNat < 0x80 then c
  else if isBlank c then ' '
  else match decimalDigit? c with
    | some value => digitChar value
    | none => c

/-- The blanks that may surround a number text. The four ASCII separators are not among them. -/
def isPadding (c : Char) : Bool :=
  c == ' ' || (0x09 ≤ c.toNat && c.toNat ≤ 0x0D)

/-- The characters without their underscores, if each underscore stands between two digits. The
first argument tells whether the character before is a digit. -/
def joinDigits? : Bool → List Char → Option (List Char)
  | _, [] => some []
  | afterDigit, '_' :: c :: cs =>
    if afterDigit && isDigit c then (joinDigits? true cs).map (c :: ·) else none
  | _, ['_'] => none
  | _, c :: cs => (joinDigits? (isDigit c) cs).map (c :: ·)

/-- The sign in front of a number, true for a minus, and what follows it. -/
def splitSign : List Char → Bool × List Char
  | '-' :: cs => (true, cs)
  | '+' :: cs => (false, cs)
  | cs => (false, cs)

/-- The value of a row of digits. -/
def naturalOf (digits : List Char) : Nat :=
  digits.foldl (fun n c => 10 * n + digitValue c) 0

/-- The power of ten behind the mark: an optional sign and digits up to the end. -/
def powerOf? (cs : List Char) : Option Int :=
  match splitSign cs with
  | (_, []) => none
  | (negative, digits) =>
    if digits.all isDigit then
      some (if negative then -(naturalOf digits : Int) else naturalOf digits)
    else none

/-- The digits before the point, the digits behind it, and what follows them. -/
def splitPoint (cs : List Char) : List Char × List Char × List Char :=
  match cs.dropWhile isDigit with
  | '.' :: rest => (cs.takeWhile isDigit, rest.takeWhile isDigit, rest.dropWhile isDigit)
  | rest => (cs.takeWhile isDigit, [], rest)

/-- The decimal that the characters write, which must hold a digit before any power of ten. -/
def decimalOf? (cs : List Char) : Option Decimal :=
  match splitPoint cs with
  | (whole, fraction, rest) =>
    let digits := whole ++ fraction
    if digits.isEmpty then none
    else match rest with
      | [] => some ⟨naturalOf digits, -(fraction.length : Int)⟩
      | mark :: power =>
        if mark == 'e' || mark == 'E' then
          (powerOf? power).map fun p => ⟨naturalOf digits, p - fraction.length⟩
        else none

/-- The numeral that the characters write without blanks and underscores. -/
def numeralOf? (cs : List Char) : Option Numeral :=
  match splitSign cs with
  | (negative, body) =>
    let name := String.ofList (body.map Char.toLower)
    if name == "inf" || name == "infinity" then some (.infinity negative)
    else if name == "nan" then some .notANumber
    else (decimalOf? body).map (.decimal negative)

/-- The numeral of a number text. -/
def numeral? (text : String) : Option Numeral :=
  (joinDigits? false (trimWhile isPadding (text.toList.map plainChar))).bind numeralOf?

/-- The double that a number text stands for. -/
def read? (text : String) : Option Float :=
  (numeral? text).map Numeral.toFloat

end Reckoner.Number
