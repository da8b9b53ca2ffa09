import Reckoner.Number.Double

/-!
# Decimal numbers and the doubles nearest to them

A decimal is a natural number times a power of ten. Reading it rounds it to the nearest double.
-/

namespace Reckoner.Number

/-- The number `digits * 10 ^ exponent`. -/
structure Decimal where
  /-- The digits, as one natural number. -/
  digits : Nat
  /-- The power of ten that the last digit stands for. -/
  exponent : Int
  deriving DecidableEq, Repr

/-- How many decimal digits a natural number is written with. -/
def digitCount (n : Nat) : Nat :=
  (Nat.toDigits 10 n).length

/-- A power of ten. -/
def powerOfTen (n : Nat) : Nat :=
  Nat.pow 10 n

/-- The rank of the double nearest to a decimal. A decimal of more than 309 digits before its point
exceeds every finite double, and one that starts behind the 324th place is below half the least
positive double; the powers of ten of such numbers are not computed. -/
def Decimal.rank (d : Decimal) : Nat :=
  let order := (digitCount d.digits : Int) + d.exponent
  if d.digits = 0 ∨ order < -323 then 0
  else if 309 < order then infinityRank
  else if 0 ≤ d.exponent then nearestRank (d.digits * powerOfTen d.exponent.toNat * unitsPerOne) 1
  else nearestRank (d.digits * unitsPerOne) (powerOfTen (-d.exponent).toNat)

end Reckoner.Number
