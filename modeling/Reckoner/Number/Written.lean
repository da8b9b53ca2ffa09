import Reckoner.Number.Shortest

/-!
# Doubles as text

Two written forms. The full form has the shortest digits that read back and always shows that it
is a double (`14.0`, `1e-05`, `inf`). The brief form drops the point of a whole number below
`10 ^ 15` and the sign of zero (`14`, `0`), and is the full form elsewhere.
-/

namespace Reckoner.Number

/-- The digits of a natural number. -/
def naturalText (n : Nat) : List Char :=
  Nat.toDigits 10 n

/-- A natural number as text. -/
def natural (n : Nat) : String :=
  String.ofList (naturalText n)

/-- A decimal without zeros at its end. The first argument bounds the number of zeros. -/
def Decimal.trimZeros : Nat → Decimal → Decimal
  | 0, d => d
  | bound + 1, d =>
    if d.digits ≠ 0 ∧ d.digits % 10 = 0 then trimZeros bound ⟨d.digits / 10, d.exponent + 1⟩ else d

/-- The digits around a point that divides them behind place `place`. -/
def pointed (digits : List Char) (place : Nat) : List Char :=
  digits.take place ++ '.' :: digits.drop place

/-- A power of ten behind the mark `e`: its sign, and two digits or more. -/
def exponentText (power : Int) : List Char :=
  let size := naturalText power.natAbs
  'e' :: (if power < 0 then '-' else '+') :: (if size.length < 2 then '0' :: size else size)

/-- A positive decimal in positional form from `10 ^ -4` up to, not including, `10 ^ 16`, and with
a power of ten elsewhere. -/
def Decimal.text (d : Decimal) : List Char :=
  let digits := naturalText d.digits
  let power := d.exponent + (digits.length - 1 : Int)
  if power < -4 ∨ 16 ≤ power then
    (if digits.length = 1 then digits else pointed digits 1) ++ exponentText power
  else if 0 ≤ d.exponent then digits ++ List.replicate d.exponent.toNat '0' ++ ['.', '0']
  else if 0 ≤ power then pointed digits (power + 1).toNat
  else '0' :: '.' :: List.replicate (-power - 1).toNat '0' ++ digits

/-- The full form of the double of a rank below infinity. -/
def rankText (rank : Nat) : List Char :=
  if rank = 0 then ['0', '.', '0'] else ((shortest rank).trimZeros 17).text

/-- A text with the sign of a number in front. -/
def signed (negative : Bool) (text : List Char) : String :=
  String.ofList (if negative then '-' :: text else text)

/-- The full form of a double. -/
def full (x : Float) : String :=
  match datum x with
  | .notANumber => "nan"
  | .infinite negative => signed negative ['i', 'n', 'f']
  | .finite negative _ => signed negative (rankText (rankOf x))

/-- The whole number that a magnitude is, if it is one. -/
def whole? (magnitude : Nat) : Option Nat :=
  if magnitude % unitsPerOne = 0 then some (magnitude / unitsPerOne) else none

/-- The brief form of a double. -/
def brief (x : Float) : String :=
  match datum x with
  | .finite negative magnitude =>
    match whole? magnitude with
    | some n => if n < powerOfTen 15 then signed (negative && n != 0) (naturalText n) else full x
    | none => full x
  | _ => full x

end Reckoner.Number
