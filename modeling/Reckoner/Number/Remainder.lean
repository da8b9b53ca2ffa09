import Reckoner.Number.Double

/-!
# The remainder of two doubles

The remainder of the truncated division, which is exact: both magnitudes are natural numbers of
one unit, and so is their remainder.
-/

namespace Reckoner.Number

/-- The remainder of `x` by `y`, with the sign of `x`. A finite `x` is its own remainder by an
infinite `y`; an infinite `x`, a zero `y` and an operand that is no number have no remainder. -/
def remainder (x y : Float) : Float :=
  match datum x, datum y with
  | .finite negative a, .finite _ b =>
    if b = 0 then notANumber else ofRank negative (nearestRank (a % b) 1)
  | .finite _ _, .infinite _ => x
  | _, _ => notANumber

end Reckoner.Number
