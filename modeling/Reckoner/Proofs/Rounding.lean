import Mathlib.Algebra.Group.Nat.Defs
import Reckoner.Number.Double

/-!
# Rounding to doubles

Rounding depends on the value of a quotient only, it respects the order, and it leaves the
magnitudes of doubles as they are.
-/

namespace Reckoner.Number

/-- The rounded quotient is the one rounded down or the next. -/
theorem roundHalfEven_bounds (n d : Nat) :
    n / d ≤ roundHalfEven n d ∧ roundHalfEven n d ≤ n / d + 1 := by
  rw [roundHalfEven]
  split <;> omega

/-- Rounding depends on the quotient only. -/
theorem roundHalfEven_mul_mul (n d : Nat) {k : Nat} (hk : 0 < k) :
    roundHalfEven (n * k) (d * k) = roundHalfEven n d := by
  have hrest : 2 * (n % d * k) = 2 * (n % d) * k := (Nat.mul_assoc _ _ _).symm
  rw [roundHalfEven, roundHalfEven, Nat.mul_div_mul_right n d hk, Nat.mul_mod_mul_right, hrest]
  simp only [Nat.mul_lt_mul_right hk, Nat.mul_left_inj (Nat.ne_of_gt hk)]

/-- Rounding respects the order of numerators. -/
theorem roundHalfEven_mono {n m : Nat} (h : n ≤ m) (d : Nat) :
    roundHalfEven n d ≤ roundHalfEven m d := by
  rcases Nat.lt_or_eq_of_le (Nat.div_le_div_right (c := d) h) with hless | hsame
  · have hn := (roundHalfEven_bounds n d).2
    have hm := (roundHalfEven_bounds m d).1
    omega
  · have hrest : n % d ≤ m % d := by
      have hn := Nat.div_add_mod n d
      have hm := Nat.div_add_mod m d
      rw [hsame] at hn
      omega
    rw [roundHalfEven, roundHalfEven, hsame]
    split <;> split <;> omega

/-- How many bits a magnitude has beyond those of a mantissa. -/
def surplusBits (whole : Nat) : Nat :=
  if whole < 2 * binadeSize then 0 else whole.log2 - 52

/-- The nearest rank in terms of the bits that are cut off. -/
theorem nearestRank_eq (n d : Nat) : nearestRank n d =
    min infinityRank (surplusBits (n / d) * 2 ^ 52 +
      roundHalfEven n (d * 2 ^ surplusBits (n / d))) := rfl

/-- Without its surplus bits a magnitude fits, and no bit too many is cut off. -/
theorem surplusBits_spec (whole : Nat) : whole < 2 ^ (53 + surplusBits whole) ∧
    (surplusBits whole ≠ 0 → 2 ^ (52 + surplusBits whole) ≤ whole) := by
  have hsize : 2 * binadeSize = 2 ^ 53 := rfl
  rw [surplusBits, hsize]
  split
  next hsmall => exact ⟨hsmall, fun h => absurd rfl h⟩
  next hlarge =>
    have hne : whole ≠ 0 := by omega
    have hlog : 53 ≤ whole.log2 := (Nat.le_log2 hne).mpr (by omega)
    constructor
    · exact (Nat.log2_lt hne).mp (by omega)
    · intro _
      exact (Nat.le_log2 hne).mp (by omega)

/-- Powers of two order like their exponents. -/
theorem exponent_lt {a b : Nat} (h : 2 ^ a < 2 ^ b) : a < b :=
  (Nat.pow_lt_pow_iff_right (by decide)).mp h

/-- A larger magnitude has no fewer surplus bits. -/
theorem surplusBits_mono {whole other : Nat} (h : whole ≤ other) :
    surplusBits whole ≤ surplusBits other := by
  by_cases hzero : surplusBits whole = 0
  · omega
  · have hlow := (surplusBits_spec whole).2 hzero
    have hhigh := (surplusBits_spec other).1
    have := exponent_lt (Nat.lt_of_le_of_lt (Nat.le_trans hlow h) hhigh)
    omega

/-- A mantissa of 53 bits, or any shorter one that is not shifted, has the surplus bits by which it
is shifted. -/
theorem surplusBits_mul {mantissa shift : Nat} (hhigh : mantissa < 2 ^ 53)
    (hlow : shift = 0 ∨ 2 ^ 52 ≤ mantissa) : surplusBits (mantissa * 2 ^ shift) = shift := by
  have hpos := Nat.two_pow_pos shift
  obtain ⟨habove, hbelow⟩ := surplusBits_spec (mantissa * 2 ^ shift)
  have hupper : mantissa * 2 ^ shift < 2 ^ (53 + shift) := by
    rw [Nat.pow_add]
    exact (Nat.mul_lt_mul_right hpos).mpr hhigh
  have hle : surplusBits (mantissa * 2 ^ shift) ≤ shift := by
    by_cases hzero : surplusBits (mantissa * 2 ^ shift) = 0
    · omega
    · have := exponent_lt (Nat.lt_of_le_of_lt (hbelow hzero) hupper)
      omega
  rcases hlow with rfl | hlong
  · omega
  · have hlower : 2 ^ (52 + shift) ≤ mantissa * 2 ^ shift := by
      rw [Nat.pow_add]
      exact Nat.mul_le_mul_right _ hlong
    have := exponent_lt (Nat.lt_of_le_of_lt hlower habove)
    omega

/-- No rank is nearest behind infinity. -/
theorem nearestRank_le (n d : Nat) : nearestRank n d ≤ infinityRank :=
  Nat.min_le_left _ _

/-- The nearest rank depends on the quotient only. -/
theorem nearestRank_mul_mul (n d : Nat) {k : Nat} (hk : 0 < k) :
    nearestRank (n * k) (d * k) = nearestRank n d := by
  rw [nearestRank_eq, nearestRank_eq, Nat.mul_div_mul_right n d hk, Nat.mul_right_comm,
    roundHalfEven_mul_mul _ _ hk]

/-- The nearest rank respects the order of numerators. -/
theorem nearestRank_mono_left {n m : Nat} (h : n ≤ m) (d : Nat) :
    nearestRank n d ≤ nearestRank m d := by
  rw [nearestRank_eq, nearestRank_eq]
  have hwhole : n / d ≤ m / d := Nat.div_le_div_right h
  have hbits := surplusBits_mono hwhole
  obtain ⟨hn, -⟩ := surplusBits_spec (n / d)
  obtain ⟨-, hm⟩ := surplusBits_spec (m / d)
  generalize surplusBits (n / d) = s at *
  generalize surplusBits (m / d) = t at *
  refine Nat.le_min.mpr ⟨Nat.min_le_left _ _, Nat.le_trans (Nat.min_le_right _ _) ?_⟩
  rcases Nat.lt_or_eq_of_le hbits with hless | rfl
  · -- a binade lies between the two: its first rank is `(t + 1) * 2 ^ 52`
    have hupper : roundHalfEven n (d * 2 ^ s) ≤ 2 ^ 53 := by
      have hquotient : n / (d * 2 ^ s) < 2 ^ 53 := by
        rw [← Nat.div_div_eq_div_mul]
        rw [Nat.pow_add] at hn
        exact (Nat.div_lt_iff_lt_mul (Nat.two_pow_pos s)).mpr hn
      have := (roundHalfEven_bounds n (d * 2 ^ s)).2
      omega
    have hlower : 2 ^ 52 ≤ roundHalfEven m (d * 2 ^ t) := by
      have hquotient : 2 ^ 52 ≤ m / (d * 2 ^ t) := by
        rw [← Nat.div_div_eq_div_mul]
        have hlong := hm (by omega)
        rw [Nat.pow_add] at hlong
        exact (Nat.le_div_iff_mul_le (Nat.two_pow_pos t)).mpr hlong
      exact Nat.le_trans hquotient (roundHalfEven_bounds m (d * 2 ^ t)).1
    omega
  · have := roundHalfEven_mono h (d * 2 ^ s)
    omega

/-- The nearest rank respects the order of quotients. -/
theorem nearestRank_mono {n m d e : Nat} (hd : 0 < d) (he : 0 < e) (h : n * e ≤ m * d) :
    nearestRank n d ≤ nearestRank m e := by
  rw [← nearestRank_mul_mul n d he, ← nearestRank_mul_mul m e hd, Nat.mul_comm e d]
  exact nearestRank_mono_left h (d * e)

/-- The rank of a finite double is the one nearest to its magnitude. -/
theorem nearestRank_magnitudeOfRank {rank : Nat} (h : rank < infinityRank) :
    nearestRank (magnitudeOfRank rank) 1 = rank := by
  have hsize : binadeSize = 2 ^ 52 := rfl
  have hdivided : rank / 2 ^ 52 * 2 ^ 52 + rank % 2 ^ 52 = rank := by omega
  have hrest : rank % 2 ^ 52 < 2 ^ 52 := Nat.mod_lt _ (by decide)
  have hexact (mantissa shift : Nat) (hhigh : mantissa < 2 ^ 53)
      (hlow : shift = 0 ∨ 2 ^ 52 ≤ mantissa) (hrank : shift * 2 ^ 52 + mantissa = rank) :
      nearestRank (mantissa * 2 ^ shift) 1 = rank := by
    rw [nearestRank_eq, Nat.div_one, surplusBits_mul hhigh hlow, Nat.one_mul,
      roundHalfEven_mul mantissa (Nat.two_pow_pos shift), hrank]
    exact Nat.min_eq_right (Nat.le_of_lt h)
  rw [magnitudeOfRank, hsize]
  split
  next hsmall =>
    have hsame := hexact rank 0 (by omega) (Or.inl rfl) (by rw [Nat.zero_mul, Nat.zero_add])
    rwa [Nat.pow_zero, Nat.mul_one] at hsame
  next hlarge =>
    obtain ⟨shift, hshift⟩ : ∃ shift, rank / 2 ^ 52 = shift + 1 := ⟨rank / 2 ^ 52 - 1, by omega⟩
    have hlong : 2 ^ 52 + rank % 2 ^ 52 < 2 ^ 53 := by omega
    rw [hshift, Nat.succ_mul, Nat.add_assoc] at hdivided
    rw [Nat.pow_eq, hshift, Nat.add_sub_cancel]
    exact hexact _ _ hlong (Or.inr (Nat.le_add_right _ _)) hdivided

end Reckoner.Number
