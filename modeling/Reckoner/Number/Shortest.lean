import Reckoner.Number.Decimal

/-!
# The shortest decimal of a double

Among the decimals that read back as a given double, the shortest have the fewest digits, and the
one nearest to the double is chosen; of two at the same distance it is the even one. On the grid
of decimals with a given number of digits only the two neighbours of the double can be chosen.
-/

namespace Reckoner.Number

/-- The power of ten of the first digit of a positive quotient. -/
def leadingPower (numerator denominator : Nat) : Int :=
  if denominator ≤ numerator then (digitCount (numerator / denominator) : Int) - 1
  else -(digitCount ((denominator - 1) / numerator) : Int)

/-- The decimal of `count` digits that is nearest to the double of a rank, or its neighbour on the
other side of the double, whichever reads back first. -/
def shortestWith? (rank count : Nat) : Option Decimal :=
  let magnitude := magnitudeOfRank rank
  let exponent := leadingPower magnitude unitsPerOne - count + 1
  let numerator := if 0 ≤ exponent then magnitude else magnitude * powerOfTen (-exponent).toNat
  let denominator := if 0 ≤ exponent then unitsPerOne * powerOfTen exponent.toNat else unitsPerOne
  let near := roundHalfEven numerator denominator
  let below := numerator / denominator
  let far := if near = below then below + 1 else below
  if Decimal.rank ⟨near, exponent⟩ = rank then some ⟨near, exponent⟩
  else if Decimal.rank ⟨far, exponent⟩ = rank then some ⟨far, exponent⟩
  else none

/-- The exact value of the double of a rank. -/
def exactDecimal (rank : Nat) : Decimal :=
  ⟨magnitudeOfRank rank * Nat.pow 5 1074, -1074⟩

/-- The shortest decimal of the double of a rank. Seventeen digits tell all doubles apart. -/
def shortest (rank : Nat) : Decimal :=
  ((List.range 17).findSome? fun count => shortestWith? rank (count + 1)).getD (exactDecimal rank)

end Reckoner.Number
