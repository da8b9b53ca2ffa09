/-!
# Doubles as exact magnitudes

Every finite double is a whole multiple of the least positive one, so its absolute value is a
natural number of units of `2 ^ -1074`. The doubles that are not negative are ranked by size: zero
has rank 0, the least positive double rank 1, and infinity follows the largest finite double. The
rank of a double is its bit pattern without the sign. Rounding a quotient of natural numbers to
the nearest double is the choice of a rank.
-/

namespace Reckoner.Number

/-- What a double stands for. -/
inductive Datum where
  /-- A finite number, by its sign and its magnitude in units of `2 ^ -1074`. -/
  | finite (negative : Bool) (magnitude : Nat)
  /-- One of the two infinities. -/
  | infinite (negative : Bool)
  /-- No number. -/
  | notANumber
  deriving DecidableEq, Repr

/-- How many units of the magnitude make up the number one. -/
def unitsPerOne : Nat := Nat.pow 2 1074

/-- The number of doubles that share one exponent, which is the weight of the exponent in a rank. -/
def binadeSize : Nat := Nat.pow 2 52

/-- The rank of infinity. -/
def infinityRank : Nat := 2047 * binadeSize

/-- The weight of the sign bit in a bit pattern; ranks stay below it. -/
def signWeight : Nat := Nat.pow 2 63

/-- The magnitude of the finite double with a rank. -/
def magnitudeOfRank (rank : Nat) : Nat :=
  if rank < binadeSize then rank
  else (binadeSize + rank % binadeSize) * Nat.pow 2 (rank / binadeSize - 1)

/-- The bit pattern without its sign. -/
def rankOf (x : Float) : Nat :=
  x.toBits.toNat % signWeight

/-- Whether the sign bit is set. -/
def isNegative (x : Float) : Bool :=
  signWeight ≤ x.toBits.toNat

/-- What the bit pattern of a double stands for. -/
def datum (x : Float) : Datum :=
  let rank := rankOf x
  if rank < infinityRank then .finite (isNegative x) (magnitudeOfRank rank)
  else if rank = infinityRank then .infinite (isNegative x)
  else .notANumber

/-- The double with a sign and a rank. -/
def ofRank (negative : Bool) (rank : Nat) : Float :=
  Float.ofBits (UInt64.ofNat (if negative then signWeight + rank else rank))

/-- The double that is no number. -/
def notANumber : Float :=
  ofRank false (infinityRank + binadeSize / 2)

/-- The natural number nearest to a quotient; a half goes to the even neighbour. -/
def roundHalfEven (numerator denominator : Nat) : Nat :=
  let below := numerator / denominator
  let rest := 2 * (numerator % denominator)
  if rest < denominator ∨ (rest = denominator ∧ below % 2 = 0) then below else below + 1

/-- A quotient that is a natural number is that number. -/
theorem roundHalfEven_mul (n : Nat) {denominator : Nat} (h : 0 < denominator) :
    roundHalfEven (n * denominator) denominator = n := by
  simp [roundHalfEven, Nat.mul_div_cancel n h, h]

/-- The rank of the double nearest to a magnitude given as a quotient; half-way magnitudes go to
the even neighbour, and magnitudes beyond the finite ones to infinity. -/
def nearestRank (numerator denominator : Nat) : Nat :=
  let whole := numerator / denominator
  let shift := if whole < 2 * binadeSize then 0 else whole.log2 - 52
  min infinityRank (shift * binadeSize + roundHalfEven numerator (denominator * Nat.pow 2 shift))

end Reckoner.Number
