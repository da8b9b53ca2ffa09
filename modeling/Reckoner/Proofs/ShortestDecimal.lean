import Reckoner.Number.Written
import Reckoner.Proofs.Rounding

/-!
# Shortest decimals read back

The rank of a decimal depends on its value only and respects the order of values. The decimal that
is written for a finite double has the rank of this double, and it stands in positional form if the
double lies between `10 ^ -4` and `10 ^ 16`.
-/

namespace Reckoner.Number

/-- A number with at most `k` digits is below the power of ten. -/
theorem digitCount_le_iff {n k : Nat} (hk : 0 < k) : digitCount n ≤ k ↔ n < 10 ^ k :=
  Nat.length_toDigits_le_iff (by decide) hk

/-- Every number has a digit. -/
theorem digitCount_pos (n : Nat) : 0 < digitCount n :=
  Nat.length_toDigits_pos

/-- A number lies between the powers of ten of its digits. -/
theorem digitCount_bounds {n : Nat} (hn : n ≠ 0) :
    10 ^ (digitCount n - 1) ≤ n ∧ n < 10 ^ digitCount n := by
  refine ⟨?_, (digitCount_le_iff (digitCount_pos n)).mp (Nat.le_refl _)⟩
  by_cases hone : digitCount n = 1
  · rw [hone]
    exact Nat.pos_of_ne_zero hn
  · have hpos := digitCount_pos n
    have := mt (digitCount_le_iff (n := n) (k := digitCount n - 1) (by omega)).mpr (by omega)
    omega

/-- A zero at the end is one more digit. -/
theorem digitCount_mul_ten {n : Nat} (hn : n ≠ 0) : digitCount (n * 10) = digitCount n + 1 := by
  obtain ⟨hlow, hhigh⟩ := digitCount_bounds hn
  obtain ⟨k, hk⟩ := Nat.exists_eq_add_of_lt (digitCount_pos n)
  rw [Nat.zero_add] at hk
  rw [hk, Nat.add_sub_cancel] at hlow
  rw [hk] at hhigh ⊢
  have hle : digitCount (n * 10) ≤ k + 1 + 1 :=
    (digitCount_le_iff (Nat.succ_pos _)).mpr (by rw [Nat.pow_succ]; omega)
  have hge : ¬ digitCount (n * 10) ≤ k + 1 := by
    rw [digitCount_le_iff (Nat.succ_pos _), Nat.pow_succ]
    omega
  omega

namespace Decimal

/-- The number of digits before the point, or the negative number of zeros behind it. -/
def order (d : Decimal) : Int :=
  digitCount d.digits + d.exponent

/-- Whether the value of a decimal is at most that of another one. -/
def AtMost (d e : Decimal) : Prop :=
  d.digits * 10 ^ (d.exponent.toNat + (-e.exponent).toNat) ≤
    e.digits * 10 ^ (e.exponent.toNat + (-d.exponent).toNat)

/-- The rank of a decimal is the one nearest to a quotient, outside of the guards. -/
theorem rank_eq (d : Decimal) : d.rank =
    if d.digits = 0 ∨ d.order < -323 then 0
    else if 309 < d.order then infinityRank
    else nearestRank (d.digits * 10 ^ d.exponent.toNat * unitsPerOne)
      (10 ^ (-d.exponent).toNat) := by
  rw [rank, order]
  by_cases hexponent : 0 ≤ d.exponent
  · have hnone : (-d.exponent).toNat = 0 := by omega
    simp only [if_pos hexponent, hnone]
    rfl
  · have hnone : d.exponent.toNat = 0 := by omega
    simp only [if_neg hexponent, hnone, Nat.pow_zero, Nat.mul_one]
    rfl

/-- No rank is behind infinity. -/
theorem rank_le (d : Decimal) : d.rank ≤ infinityRank := by
  rw [rank_eq]
  split
  · exact Nat.zero_le _
  · split
    · exact Nat.le_refl _
    · exact nearestRank_le _ _

/-- What exceeds a decimal that is not zero is not zero. -/
theorem digits_ne_zero_of_atMost {d e : Decimal} (hd : d.digits ≠ 0) (h : AtMost d e) :
    e.digits ≠ 0 := by
  intro he
  rw [AtMost, he, Nat.zero_mul, Nat.le_zero] at h
  exact Nat.mul_ne_zero hd (Nat.ne_of_gt (Nat.pow_pos (by decide))) h

/-- A larger value has no fewer digits before the point. -/
theorem order_mono {d e : Decimal} (hd : d.digits ≠ 0) (h : AtMost d e) : d.order ≤ e.order := by
  have hlow := (digitCount_bounds hd).1
  have hhigh := (digitCount_bounds (digits_ne_zero_of_atMost hd h)).2
  have hpow : 10 ^ (digitCount d.digits - 1 + (d.exponent.toNat + (-e.exponent).toNat)) <
      10 ^ (digitCount e.digits + (e.exponent.toNat + (-d.exponent).toNat)) := by
    calc _ = 10 ^ (digitCount d.digits - 1) * 10 ^ (d.exponent.toNat + (-e.exponent).toNat) :=
          Nat.pow_add _ _ _
      _ ≤ d.digits * 10 ^ (d.exponent.toNat + (-e.exponent).toNat) := Nat.mul_le_mul_right _ hlow
      _ ≤ e.digits * 10 ^ (e.exponent.toNat + (-d.exponent).toNat) := h
      _ < 10 ^ digitCount e.digits * 10 ^ (e.exponent.toNat + (-d.exponent).toNat) :=
        (Nat.mul_lt_mul_right (Nat.pow_pos (by decide))).mpr hhigh
      _ = _ := (Nat.pow_add _ _ _).symm
  have hexponents := (Nat.pow_lt_pow_iff_right (by decide : 1 < 10)).mp hpow
  have hpos := digitCount_pos d.digits
  rw [order, order]
  omega

/-- The rank of a decimal respects the order of values. -/
theorem rank_mono {d e : Decimal} (h : AtMost d e) : d.rank ≤ e.rank := by
  rw [rank_eq d]
  split
  next => exact Nat.zero_le _
  next hguard =>
    obtain ⟨hd, hsmall⟩ := not_or.mp hguard
    have horder := order_mono hd h
    have hguard' : ¬ (e.digits = 0 ∨ e.order < -323) :=
      not_or.mpr ⟨digits_ne_zero_of_atMost hd h, by omega⟩
    rw [rank_eq e, if_neg hguard']
    by_cases hlarge : 309 < e.order
    · rw [if_pos hlarge]
      split
      · exact Nat.le_refl _
      · exact nearestRank_le _ _
    · rw [if_neg hlarge, if_neg (by omega)]
      have hunits (n a b : Nat) : n * 10 ^ a * unitsPerOne * 10 ^ b =
          n * 10 ^ (a + b) * unitsPerOne := by
        rw [Nat.mul_right_comm, Nat.mul_assoc n, ← Nat.pow_add]
      apply nearestRank_mono (Nat.pow_pos (by decide)) (Nat.pow_pos (by decide))
      rw [hunits, hunits]
      exact Nat.mul_le_mul_right _ h

/-- Decimals of the same value have the same rank. -/
theorem rank_congr {d e : Decimal} (h : AtMost d e) (h' : AtMost e d) : d.rank = e.rank :=
  Nat.le_antisymm (rank_mono h) (rank_mono h')

/-- A decimal whose first digit stands behind the place of a power of ten is below it. -/
theorem atMost_powerOfTen {d : Decimal} {n : Int} (h : d.order ≤ n) : AtMost d ⟨1, n⟩ := by
  have hdigits : d.digits ≤ 10 ^ digitCount d.digits :=
    Nat.le_of_lt ((digitCount_le_iff (digitCount_pos _)).mp (Nat.le_refl _))
  rw [order] at h
  rw [AtMost, Nat.one_mul]
  calc d.digits * 10 ^ (d.exponent.toNat + (-n).toNat)
      ≤ 10 ^ digitCount d.digits * 10 ^ (d.exponent.toNat + (-n).toNat) :=
        Nat.mul_le_mul_right _ hdigits
    _ = 10 ^ (digitCount d.digits + (d.exponent.toNat + (-n).toNat)) := (Nat.pow_add _ _ _).symm
    _ ≤ 10 ^ (n.toNat + (-d.exponent).toNat) := Nat.pow_le_pow_right (by decide) (by omega)

/-- A decimal whose first digit stands at the place of a power of ten or in front of it reaches
it. -/
theorem powerOfTen_atMost {d : Decimal} {n : Int} (hd : d.digits ≠ 0) (h : n < d.order) :
    AtMost ⟨1, n⟩ d := by
  rw [order] at h
  rw [AtMost, Nat.one_mul]
  calc 10 ^ (n.toNat + (-d.exponent).toNat)
      ≤ 10 ^ (digitCount d.digits - 1 + (d.exponent.toNat + (-n).toNat)) :=
        Nat.pow_le_pow_right (by decide) (by omega)
    _ = 10 ^ (digitCount d.digits - 1) * 10 ^ (d.exponent.toNat + (-n).toNat) := Nat.pow_add _ _ _
    _ ≤ d.digits * 10 ^ (d.exponent.toNat + (-n).toNat) :=
        Nat.mul_le_mul_right _ (digitCount_bounds hd).1

/-- Zeros at the end of the digits do not change the rank. -/
theorem rank_mul_powerOfTen (digits : Nat) (exponent : Int) (zeros : Nat) :
    rank ⟨digits * 10 ^ zeros, exponent - zeros⟩ = rank ⟨digits, exponent⟩ := by
  have hplaces : zeros + ((exponent - zeros).toNat + (-exponent).toNat) =
      exponent.toNat + (-(exponent - zeros)).toNat := by omega
  have hvalue : digits * 10 ^ zeros * 10 ^ ((exponent - zeros).toNat + (-exponent).toNat) =
      digits * 10 ^ (exponent.toNat + (-(exponent - zeros)).toNat) := by
    rw [Nat.mul_assoc, ← Nat.pow_add, hplaces]
  exact rank_congr (Nat.le_of_eq hvalue) (Nat.le_of_eq hvalue.symm)

/-- Trimming zeros changes neither the rank nor the number of digits before the point. -/
theorem trimZeros_spec (bound : Nat) (d : Decimal) :
    (d.trimZeros bound).rank = d.rank ∧ (d.trimZeros bound).order = d.order := by
  induction bound generalizing d with
  | zero => exact ⟨rfl, rfl⟩
  | succ bound ih =>
    rw [trimZeros]
    split
    next hzero =>
      have htens : d.digits / 10 * 10 = d.digits := by omega
      have hne : d.digits / 10 ≠ 0 := by omega
      have hscaled : rank ⟨d.digits / 10, d.exponent + 1⟩ = d.rank := by
        rw [← rank_mul_powerOfTen (d.digits / 10) (d.exponent + 1) 1, Nat.pow_one, htens]
        exact congrArg (fun exponent => rank ⟨d.digits, exponent⟩) (Int.add_sub_cancel _ 1)
      have hshifted : order ⟨d.digits / 10, d.exponent + 1⟩ = d.order := by
        have hcount := digitCount_mul_ten hne
        rw [htens] at hcount
        rw [order, order, hcount]
        dsimp only
        omega
      obtain ⟨hrank, horder⟩ := ih ⟨d.digits / 10, d.exponent + 1⟩
      exact ⟨hrank.trans hscaled, horder.trans hshifted⟩
    next => exact ⟨rfl, rfl⟩

end Decimal

/-- A double that is not zero has a magnitude. -/
theorem magnitudeOfRank_pos {rank : Nat} (hne : rank ≠ 0) : 0 < magnitudeOfRank rank := by
  rw [magnitudeOfRank]
  split
  · exact Nat.pos_of_ne_zero hne
  · exact Nat.mul_pos (Nat.add_pos_left (by decide) _) (Nat.two_pow_pos _)

/-- The magnitudes of the ranks below a binade are below the first of this binade. -/
theorem magnitudeOfRank_lt {rank k : Nat} (h : rank < (k + 2) * 2 ^ 52) :
    magnitudeOfRank rank < 2 ^ 53 * 2 ^ k := by
  have hsize : binadeSize = 2 ^ 52 := rfl
  have hrest : rank % 2 ^ 52 < 2 ^ 52 := Nat.mod_lt _ (by decide)
  rw [magnitudeOfRank, hsize]
  split
  next hsmall =>
    have hmantissa : rank < 2 ^ 53 := by omega
    exact Nat.lt_of_lt_of_le hmantissa (Nat.le_mul_of_pos_right _ (Nat.two_pow_pos k))
  next =>
    have hbinade : rank / 2 ^ 52 - 1 ≤ k := by omega
    have hmantissa : 2 ^ 52 + rank % 2 ^ 52 < 2 ^ 53 := by omega
    rw [Nat.pow_eq]
    calc (2 ^ 52 + rank % 2 ^ 52) * 2 ^ (rank / 2 ^ 52 - 1)
        < 2 ^ 53 * 2 ^ (rank / 2 ^ 52 - 1) :=
          (Nat.mul_lt_mul_right (Nat.two_pow_pos _)).mpr hmantissa
      _ ≤ 2 ^ 53 * 2 ^ k := Nat.mul_le_mul_left _ (Nat.pow_le_pow_right (by decide) hbinade)

/-- Units of `2 ^ -k` are multiples of `10 ^ -k`. -/
theorem nearestRank_tens (magnitude k : Nat) :
    nearestRank (magnitude * Nat.pow 5 k * Nat.pow 2 k) (10 ^ k) = nearestRank magnitude 1 := by
  rw [Nat.pow_eq, Nat.pow_eq, Nat.mul_assoc, ← Nat.mul_pow,
    ← nearestRank_mul_mul magnitude 1 (k := 10 ^ k) (Nat.pow_pos (by decide)), Nat.one_mul]

/-- The exact value of a finite double has its rank. -/
theorem rank_exactDecimal {rank : Nat} (hne : rank ≠ 0) (h : rank < infinityRank) :
    (exactDecimal rank).rank = rank := by
  have hguards {n : Nat} (hlow : ¬ n ≤ 750) (hhigh : n ≤ 1383) :
      ¬ (n - 1074 : Int) < -323 ∧ ¬ 309 < (n - 1074 : Int) := by omega
  obtain ⟨k, hk, hdigits, hunits⟩ : ∃ k, k = 1074 ∧
      (exactDecimal rank).digits = magnitudeOfRank rank * Nat.pow 5 k ∧
      unitsPerOne = Nat.pow 2 k :=
    ⟨1074, rfl, by rw [exactDecimal], by unfold unitsPerOne; rfl⟩
  have hlow : ¬ digitCount (exactDecimal rank).digits ≤ 750 := by
    have hpower : 10 ^ 750 ≤ Nat.pow 5 k := by rw [hk]; decide +kernel
    rw [hdigits, digitCount_le_iff (by decide)]
    exact Nat.not_lt.mpr
      (Nat.le_trans hpower (Nat.le_mul_of_pos_left _ (magnitudeOfRank_pos hne)))
  have hhigh : digitCount (exactDecimal rank).digits ≤ 1383 := by
    have hpower : 2 ^ 53 * 2 ^ 2045 * Nat.pow 5 k < 10 ^ 1383 := by rw [hk]; decide +kernel
    rw [hdigits, digitCount_le_iff (by decide)]
    exact Nat.lt_of_le_of_lt (Nat.mul_le_mul_right _ (Nat.le_of_lt (magnitudeOfRank_lt h))) hpower
  have hnonzero : (exactDecimal rank).digits ≠ 0 := by
    intro hzero
    rw [hzero] at hlow
    exact hlow (by decide)
  have hexponent : (exactDecimal rank).exponent = -1074 := by rw [exactDecimal]
  have horder : (exactDecimal rank).order = digitCount (exactDecimal rank).digits - 1074 := by
    rw [Decimal.order, hexponent]
    rfl
  have hplaces : (-(-1074 : Int)).toNat = k := hk.symm
  have hnone : (-1074 : Int).toNat = 0 := rfl
  obtain ⟨hsmall, hlarge⟩ := hguards hlow hhigh
  rw [← horder] at hsmall hlarge
  rw [Decimal.rank_eq, if_neg (not_or.mpr ⟨hnonzero, hsmall⟩), if_neg hlarge, hexponent, hplaces,
    hnone, Nat.pow_zero, Nat.mul_one, hdigits, hunits, nearestRank_tens,
    nearestRank_magnitudeOfRank h]

/-- What is chosen for a property has it. -/
theorem property_of_chosen {α : Type} {p : α → Prop} [DecidablePred p] {first second chosen : α}
    (h : (if p first then some first else if p second then some second else none) = some chosen) :
    p chosen := by
  split at h
  next hfirst => exact Option.some.inj h ▸ hfirst
  next =>
    split at h
    next hsecond => exact Option.some.inj h ▸ hsecond
    next => cases h

/-- A decimal that is found with some number of digits has the rank. -/
theorem rank_shortestWith? {rank count : Nat} {d : Decimal}
    (h : shortestWith? rank count = some d) : d.rank = rank := by
  unfold shortestWith? at h
  extract_lets magnitude exponent numerator denominator near below far at h
  clear_value near far exponent
  exact property_of_chosen (p := fun d => Decimal.rank d = rank) h

/-- The shortest decimal of a finite double reads back. -/
theorem rank_shortest {rank : Nat} (hne : rank ≠ 0) (h : rank < infinityRank) :
    (shortest rank).rank = rank := by
  rw [shortest]
  cases hfound : (List.range 17).findSome? fun count => shortestWith? rank (count + 1) with
  | none =>
    rw [Option.getD_none]
    exact rank_exactDecimal hne h
  | some d =>
    obtain ⟨count, -, hcount⟩ := List.exists_of_findSome?_eq_some hfound
    exact rank_shortestWith? hcount

/-- The digits of a decimal with a rank are not all zero. -/
theorem digits_ne_zero {d : Decimal} (h : d.rank ≠ 0) : d.digits ≠ 0 := by
  intro hzero
  rw [Decimal.rank_eq, if_pos (Or.inl hzero)] at h
  exact h rfl

/-- Between `10 ^ -4` and `10 ^ 16` the shortest decimal of a double starts at one of the places
where it is written in positional form. -/
theorem order_shortest {rank : Nat} (hlow : Decimal.rank ⟨1, -4⟩ ≤ rank)
    (hhigh : rank < Decimal.rank ⟨1, 16⟩) :
    -4 < (shortest rank).order ∧ (shortest rank).order ≤ 16 := by
  have hleast : Decimal.rank ⟨1, -4⟩ ≠ 0 := by decide +kernel
  have hne : rank ≠ 0 := by omega
  have hrank := rank_shortest hne (Nat.lt_of_lt_of_le hhigh (Decimal.rank_le _))
  constructor
  · refine Int.not_le.mp fun hbefore => ?_
    -- only `10 ^ -4` itself is left, and its shortest decimal is found at once
    have hle := Decimal.rank_mono (Decimal.atMost_powerOfTen hbefore)
    rw [hrank] at hle
    have hsame : rank = Decimal.rank ⟨1, -4⟩ := Nat.le_antisymm hle hlow
    have hfirst : -4 < (shortest (Decimal.rank ⟨1, -4⟩)).order := by decide +kernel
    rw [hsame] at hbefore
    omega
  · refine Int.not_lt.mp fun hbehind => ?_
    have hdigits : (shortest rank).digits ≠ 0 := digits_ne_zero (by rwa [hrank])
    have hle := Decimal.rank_mono (Decimal.powerOfTen_atMost hdigits hbehind)
    rw [hrank] at hle
    omega

end Reckoner.Number
