import Mathlib.Algebra.Group.Nat.Defs
import Reckoner.Number.Double

/-!
# The order of the doubles

A double is told by its sign and its rank, unless it is no number. The doubles that are numbers
compare like their ranks with the sign, so zero has two forms that are equal, and no other two
doubles are.
-/

namespace Reckoner.Number

open Float.Model Float.Model.UnpackedFloat

/-- The sign of a double that is negative or not. -/
def signOf (negative : Bool) : Sign :=
  if negative then .negative else .positive

/-- The mantissa of the double of a rank, with its leading bit. -/
def mantissaOf (rank : Nat) : Nat :=
  if rank < binadeSize then rank else binadeSize + rank % binadeSize

/-- The power of two that the last bit of the mantissa stands for. -/
def exponentOf (rank : Nat) : Int :=
  max 1 (rank / binadeSize : Nat) - 1075

theorem binadeSize_eq : binadeSize = 2 ^ 52 := rfl

theorem infinityRank_eq : infinityRank = 2047 * 2 ^ 52 := rfl

theorem signWeight_eq : signWeight = 2 ^ 63 := rfl

/-- Only zero has no mantissa. -/
theorem mantissaOf_pos {rank : Nat} (h : rank ≠ 0) : 0 < mantissaOf rank := by
  rw [mantissaOf, binadeSize_eq]
  split <;> omega

/-- Below the first binade the mantissa is the rank. -/
theorem mantissaOf_of_lt {rank : Nat} (h : rank < 2 ^ 52) : mantissaOf rank = rank := by
  rw [mantissaOf, binadeSize_eq, if_pos h]

/-- In a binade the mantissa has a leading bit in front of the last bits of the rank. -/
theorem mantissaOf_of_le {rank : Nat} (h : 2 ^ 52 ≤ rank) :
    mantissaOf rank = 2 ^ 52 + rank % 2 ^ 52 := by
  rw [mantissaOf, binadeSize_eq, if_neg (Nat.not_lt.mpr h)]

/-- The parts of the double with a sign and a rank. -/
def partsOf (negative : Bool) (rank : Nat) : UnpackedFloat :=
  if h : rank = 0 then .zero (signOf negative)
  else if rank < infinityRank then
    .finite (signOf negative) (mantissaOf rank) (exponentOf rank) (mantissaOf_pos h)
  else if rank = infinityRank then .infinity (signOf negative)
  else .notANumber

/-- Finite parts are told by sign, mantissa and exponent. -/
theorem finite_congr (sign : Sign) {m n : Nat} {e f : Int} (hm : 0 < m) (hn : 0 < n)
    (hmn : m = n) (hef : e = f) : UnpackedFloat.finite sign m e hm = .finite sign n f hn := by
  subst hmn hef
  rfl

/-- The sign bit tells whether a double is negative. -/
theorem sign_eq_signOf (bits : BitVec 64) :
    Sign.ofBitVec (@unpackSign Format.binary64 bits) =
      signOf (signWeight ≤ bits.toNat) := by
  have hbound := bits.isLt
  have htop : (@unpackSign Format.binary64 bits).toNat = bits.toNat / 2 ^ 63 := by
    unfold unpackSign
    simp [Nat.shiftRight_eq_div_pow]
    omega
  have hzero : @unpackSign Format.binary64 bits = 0#1 ↔ ¬ signWeight ≤ bits.toNat := by
    rw [← BitVec.toNat_inj, htop, signWeight_eq]
    simp only [BitVec.toNat_ofNat]
    omega
  by_cases hneg : signWeight ≤ bits.toNat
  · rw [Sign.ofBitVec, signOf, if_neg (fun h => hzero.mp h hneg), if_pos (by simpa using hneg)]
  · rw [Sign.ofBitVec, signOf, if_pos (hzero.mpr hneg), if_neg (by simpa using hneg)]

/-- The last bits of a double are those of its rank. -/
theorem toNat_unpackMantissa (bits : BitVec 64) :
    (@unpackMantissa Format.binary64 bits).toNat = bits.toNat % signWeight % 2 ^ 52 := by
  rw [signWeight_eq]
  unfold unpackMantissa
  simp

/-- The bits behind the sign tell the binade of the rank. -/
theorem toNat_unpackExponent (bits : BitVec 64) :
    (@unpackExponent Format.binary64 bits).toNat = bits.toNat % signWeight / 2 ^ 52 := by
  rw [signWeight_eq]
  unfold unpackExponent
  simp [Nat.shiftRight_eq_div_pow]
  omega

/-- Zero has a sign only. -/
theorem partsOf_zero (negative : Bool) : partsOf negative 0 = .zero (signOf negative) := rfl

/-- The parts of a finite double that is not zero. -/
theorem partsOf_finite (negative : Bool) {rank : Nat} (hne : rank ≠ 0)
    (hfinite : rank < infinityRank) :
    partsOf negative rank =
      .finite (signOf negative) (mantissaOf rank) (exponentOf rank) (mantissaOf_pos hne) := by
  rw [partsOf, dif_neg hne, if_pos hfinite]

/-- Infinity has a sign only. -/
theorem partsOf_infinityRank (negative : Bool) :
    partsOf negative infinityRank = .infinity (signOf negative) := rfl

/-- Behind infinity there is no number. -/
theorem partsOf_of_lt (negative : Bool) {rank : Nat} (h : infinityRank < rank) :
    partsOf negative rank = .notANumber := by
  rw [partsOf, dif_neg (by omega), if_neg (by omega), if_neg (by omega)]

/-- A bit pattern has the parts of its sign and its rank. -/
theorem unpack_eq_partsOf (bits : BitVec 64) :
    UnpackedFloat.unpack Format.binary64 bits =
      partsOf (signWeight ≤ bits.toNat) (bits.toNat % signWeight) := by
  have hmantissa := toNat_unpackMantissa bits
  have hexponent := toNat_unpackExponent bits
  have hleading : (1#1 ++ @unpackMantissa Format.binary64 bits).toNat =
      2 ^ 52 + bits.toNat % signWeight % 2 ^ 52 := by
    rw [BitVec.toNat_append, ← Nat.shiftLeft_add_eq_or_of_lt (BitVec.isLt _), hmantissa,
      Nat.shiftLeft_eq]
    rfl
  have hlast : @unpackExponent Format.binary64 bits = -1#11 ↔
      bits.toNat % signWeight / 2 ^ 52 = 2047 := by
    rw [← BitVec.toNat_inj, hexponent]
    rfl
  have hfirst : @unpackExponent Format.binary64 bits = 0#11 ↔
      bits.toNat % signWeight / 2 ^ 52 = 0 := by
    rw [← BitVec.toNat_inj, hexponent]
    rfl
  have hnone : @unpackMantissa Format.binary64 bits = 0#52 ↔
      bits.toNat % signWeight % 2 ^ 52 = 0 := by
    rw [← BitVec.toNat_inj, hmantissa]
    rfl
  have hbound : bits.toNat % signWeight < 2 ^ 63 := Nat.mod_lt _ (by decide)
  have hexact : ((@unpackExponent Format.binary64 bits).toNat : Int) -
      (Format.binary64.exponentBias + Format.binary64.mantissaBitsWithoutImplicit) =
        (bits.toNat % signWeight / 2 ^ 52 : Nat) - 1075 := by
    rw [hexponent]
    rfl
  unfold UnpackedFloat.unpack
  dsimp only
  rw [sign_eq_signOf]
  generalize bits.toNat % signWeight = rank at *
  generalize decide (signWeight ≤ bits.toNat) = negative
  by_cases hend : rank / 2 ^ 52 = 2047
  · refine (if_pos (hlast.mpr hend)).trans ?_
    by_cases hzero : rank % 2 ^ 52 = 0
    · obtain rfl : rank = infinityRank := by rw [infinityRank_eq]; omega
      exact (if_pos (hnone.mpr hzero)).trans (partsOf_infinityRank negative).symm
    · have hbehind : infinityRank < rank := by rw [infinityRank_eq]; omega
      exact (if_neg (mt hnone.mp hzero)).trans (partsOf_of_lt negative hbehind).symm
  have hfinite : rank < infinityRank := by
    rw [infinityRank_eq]
    omega
  refine (if_neg (mt hlast.mp hend)).trans ?_
  by_cases hstart : rank / 2 ^ 52 = 0
  · refine (if_pos (hfirst.mpr hstart)).trans ?_
    by_cases hzero : rank % 2 ^ 52 = 0
    · obtain rfl : rank = 0 := by omega
      exact (dif_pos (hnone.mpr hzero)).trans (partsOf_zero negative).symm
    · refine (dif_neg (mt hnone.mp hzero)).trans ?_
      rw [partsOf_finite negative (by omega) hfinite]
      apply finite_congr
      · rw [hmantissa, mantissaOf_of_lt (by omega)]
        omega
      · rw [hexact, exponentOf, binadeSize_eq, hstart]
        rfl
  · refine (if_neg (mt hfirst.mp hstart)).trans ?_
    rw [partsOf_finite negative (by omega) hfinite]
    apply finite_congr
    · rw [hleading, mantissaOf_of_le (by omega)]
    · rw [hexact, exponentOf, binadeSize_eq]
      omega

/-- The bit pattern of packed components. -/
theorem toNat_packComponents (negative : Bool) (exponent : BitVec 11) (mantissa : BitVec 52) :
    (packComponents Format.binary64 (signOf negative) exponent mantissa).toNat =
      (if negative then signWeight else 0) + (exponent.toNat * 2 ^ 52 + mantissa.toNat) := by
  rw [packComponents, BitVec.toNat_append, ← Nat.shiftLeft_add_eq_or_of_lt (BitVec.isLt _),
    BitVec.toNat_append, ← Nat.shiftLeft_add_eq_or_of_lt (BitVec.isLt _), Nat.shiftLeft_eq,
    Nat.shiftLeft_eq, signWeight_eq]
  cases negative
  · simp [signOf, Sign.toBitVec]
  · simp [signOf, Sign.toBitVec]
    omega

/-- Packing the parts of a double that is a number gives its sign and its rank back. -/
theorem toNat_pack_partsOf (negative : Bool) {rank : Nat} (h : rank ≤ infinityRank) :
    (UnpackedFloat.pack Format.binary64 (partsOf negative rank)).toNat =
      (if negative then signWeight else 0) + rank := by
  by_cases hzero : rank = 0
  · rw [hzero, partsOf_zero]
    change (packedZero Format.binary64 (signOf negative)).toNat = _
    rw [packedZero, toNat_packComponents]
    rfl
  by_cases hinfinity : rank = infinityRank
  · rw [hinfinity, partsOf_infinityRank]
    change (packedInfinity Format.binary64 (signOf negative)).toNat = _
    rw [packedInfinity, toNat_packComponents]
    rfl
  have hfinite : rank < 2047 * 2 ^ 52 := by
    rw [infinityRank_eq] at h hinfinity
    omega
  have hbiased : (exponentOf rank + Format.binary64.exponentBias +
      Format.binary64.mantissaBitsWithoutImplicit).toNat = max 1 (rank / 2 ^ 52) := by
    have hbias : (Format.binary64.exponentBias : Int) = 1023 := rfl
    have hwidth : (Format.binary64.mantissaBitsWithoutImplicit : Int) = 52 := rfl
    rw [exponentOf, binadeSize_eq, hbias, hwidth]
    omega
  have hlarge : ¬ 2 ^ 11 ≤ max 1 (rank / 2 ^ 52) + 1 := by omega
  have hbits : (Format.binary64).mantissaBits = 53 := rfl
  rw [partsOf_finite negative hzero hfinite]
  unfold UnpackedFloat.pack
  simp only [hbiased, if_neg hlarge, hbits]
  by_cases hsmall : rank < 2 ^ 52
  · have hlog : ¬ rank.log2 + 1 = 53 := by
      have := (Nat.log2_lt hzero).mpr hsmall
      omega
    rw [mantissaOf_of_lt hsmall, if_neg hlog, toNat_packComponents, BitVec.toNat_ofNat,
      BitVec.toNat_ofNat, Nat.mod_eq_of_lt hsmall]
    omega
  · have hlog : (2 ^ 52 + rank % 2 ^ 52).log2 + 1 = 53 := by
      have hlow : 52 ≤ (2 ^ 52 + rank % 2 ^ 52).log2 := (Nat.le_log2 (by omega)).mpr (by omega)
      have hhigh : (2 ^ 52 + rank % 2 ^ 52).log2 < 53 := (Nat.log2_lt (by omega)).mpr (by omega)
      omega
    rw [mantissaOf_of_le (Nat.not_lt.mp hsmall), if_pos hlog, toNat_packComponents,
      BitVec.toNat_ofNat, BitVec.toNat_ofNat]
    omega

/-- A double has the parts of its sign and its rank. -/
theorem unpack_toModel (x : Float) :
    x.toModel.unpack = partsOf (isNegative x) (rankOf x) :=
  unpack_eq_partsOf x.toModel.toBits.toBitVec

/-- A double is told by its sign and its rank. -/
theorem eq_of_rankOf_eq {x y : Float} (hneg : isNegative x = isNegative y)
    (hrank : rankOf x = rankOf y) : x = y := by
  have hbits : x.toBits.toNat = y.toBits.toNat := by
    rw [isNegative, isNegative, decide_eq_decide, signWeight_eq] at hneg
    rw [rankOf, rankOf, signWeight_eq] at hrank
    have := x.toBits.toNat_lt
    have := y.toBits.toNat_lt
    omega
  have hmodel : x.toModel.toBits = y.toModel.toBits := UInt64.toNat_inj.mp hbits
  obtain ⟨⟨bits, _⟩⟩ := x
  obtain ⟨⟨others, _⟩⟩ := y
  simp only at hmodel
  subst hmodel
  rfl

/-- The bit pattern with a sign and a rank. -/
theorem toNat_bits (negative : Bool) {rank : Nat} (h : rank ≤ infinityRank) :
    (UInt64.ofNat (if negative then signWeight + rank else rank)).toNat =
      (if negative then signWeight else 0) + rank := by
  rw [infinityRank_eq] at h
  rw [UInt64.toNat_ofNat', signWeight_eq]
  cases negative
  · simp
    omega
  · simp
    omega

/-- The sign and the rank of a bit pattern that has them. -/
theorem bits_divided (negative : Bool) {rank : Nat} (h : rank ≤ infinityRank) :
    decide (signWeight ≤ (if negative then signWeight else 0) + rank) = negative ∧
      ((if negative then signWeight else 0) + rank) % signWeight = rank := by
  rw [infinityRank_eq] at h
  rw [signWeight_eq]
  cases negative
  · simp
    omega
  · simp
    omega

/-- A double that is packed from parts has their sign and their rank. -/
theorem pack_partsOf (negative : Bool) {rank : Nat} (h : rank ≤ infinityRank) :
    isNegative ⟨Float.Model.pack (partsOf negative rank)⟩ = negative ∧
      rankOf ⟨Float.Model.pack (partsOf negative rank)⟩ = rank := by
  have hbits : (Float.toBits ⟨Float.Model.pack (partsOf negative rank)⟩).toNat =
      (if negative then signWeight else 0) + rank := toNat_pack_partsOf negative h
  rw [isNegative, rankOf, hbits]
  exact bits_divided negative h

/-- The double with a sign and a rank is packed from their parts. -/
theorem ofRank_eq_pack (negative : Bool) {rank : Nat} (h : rank ≤ infinityRank) :
    ofRank negative rank = ⟨Float.Model.pack (partsOf negative rank)⟩ := by
  have hparts := unpack_eq_partsOf
    (UInt64.ofNat (if negative then signWeight + rank else rank)).toBitVec
  rw [show (UInt64.ofNat (if negative then signWeight + rank else rank)).toBitVec.toNat =
    (if negative then signWeight else 0) + rank from toNat_bits negative h,
    (bits_divided negative h).1, (bits_divided negative h).2] at hparts
  rw [ofRank, Float.ofBits, Float.Model.ofBits, hparts]

/-- The sign of the double with a sign and a rank. -/
theorem isNegative_ofRank (negative : Bool) {rank : Nat} (h : rank ≤ infinityRank) :
    isNegative (ofRank negative rank) = negative := by
  rw [ofRank_eq_pack negative h]
  exact (pack_partsOf negative h).1

/-- The rank of the double with a sign and a rank. -/
theorem rankOf_ofRank (negative : Bool) {rank : Nat} (h : rank ≤ infinityRank) :
    rankOf (ofRank negative rank) = rank := by
  rw [ofRank_eq_pack negative h]
  exact (pack_partsOf negative h).2

/-- A double that is a number is the one with its sign and its rank. -/
theorem ofRank_rankOf {x : Float} (h : rankOf x ≤ infinityRank) :
    ofRank (isNegative x) (rankOf x) = x :=
  eq_of_rankOf_eq (isNegative_ofRank _ h) (rankOf_ofRank _ h)

/-- The parts of a double that is a number. -/
theorem unpack_ofRank (negative : Bool) {rank : Nat} (h : rank ≤ infinityRank) :
    (ofRank negative rank).toModel.unpack = partsOf negative rank := by
  rw [unpack_toModel, isNegative_ofRank negative h, rankOf_ofRank negative h]

/-- A double that is a number is zero, finite or infinite. -/
theorem rank_cases {rank : Nat} (h : rank ≤ infinityRank) :
    rank = 0 ∨ (rank ≠ 0 ∧ rank < infinityRank) ∨ rank = infinityRank := by
  omega

/-- The opposite of a double has the other sign. -/
theorem neg_ofRank (negative : Bool) {rank : Nat} (h : rank ≤ infinityRank) :
    -ofRank negative rank = ofRank (!negative) rank := by
  have hneg : (partsOf negative rank).neg = partsOf (!negative) rank := by
    rcases rank_cases h with rfl | ⟨hne, hfinite⟩ | rfl
    · cases negative <;> rfl
    · rw [partsOf_finite _ hne hfinite, partsOf_finite _ hne hfinite]
      cases negative <;> rfl
    · cases negative <;> rfl
  rw [ofRank_eq_pack (!negative) h, ← hneg, ← unpack_ofRank negative h]
  rfl

/-- The absolute value of a double has no sign. -/
theorem abs_ofRank (negative : Bool) {rank : Nat} (h : rank ≤ infinityRank) :
    (ofRank negative rank).abs = ofRank false rank := by
  have habs : (partsOf negative rank).abs = partsOf false rank := by
    rcases rank_cases h with rfl | ⟨hne, hfinite⟩ | rfl
    · rfl
    · rw [partsOf_finite _ hne hfinite, partsOf_finite _ hne hfinite]
      rfl
    · rfl
  rw [ofRank_eq_pack false h, ← habs, ← unpack_ofRank negative h]
  rfl

/-- A rank with its sign. -/
def signedRank (negative : Bool) (rank : Nat) : Int :=
  if negative then -rank else rank

/-- Finite doubles of one sign compare by exponent, then by mantissa, as their ranks do. -/
theorem compare_mantissas (rank other : Nat) :
    (compare (exponentOf rank) (exponentOf other)).then
      (compare (mantissaOf rank) (mantissaOf other)) = compare rank other := by
  have hlt {low high : Nat} (h : low < high) : exponentOf low < exponentOf high ∨
      exponentOf low = exponentOf high ∧ mantissaOf low < mantissaOf high := by
    rw [exponentOf, exponentOf, mantissaOf, mantissaOf, binadeSize_eq]
    split <;> split <;> omega
  rcases Nat.lt_trichotomy rank other with hless | rfl | hmore
  · rw [Nat.compare_eq_lt.mpr hless]
    rcases hlt hless with he | ⟨he, hm⟩
    · rw [Int.compare_eq_lt.mpr he]
      rfl
    · rw [Int.compare_eq_eq.mpr he, Nat.compare_eq_lt.mpr hm]
      rfl
  · rw [Int.compare_eq_eq.mpr rfl, Nat.compare_eq_eq.mpr rfl, Nat.compare_eq_eq.mpr rfl]
    rfl
  · rw [Nat.compare_eq_gt.mpr hmore]
    rcases hlt hmore with he | ⟨he, hm⟩
    · rw [Int.compare_eq_gt.mpr he]
      rfl
    · rw [Int.compare_eq_eq.mpr he.symm, Nat.compare_eq_gt.mpr hm]
      rfl

/-- Ranks compare as integers like as natural numbers, and their opposites the other way. -/
theorem compare_signedRank (rank other : Nat) :
    compare (signedRank false rank) (signedRank false other) = compare rank other ∧
      compare (signedRank true rank) (signedRank true other) = (compare rank other).swap := by
  simp only [signedRank, if_true, Bool.false_eq_true, if_false]
  rcases Nat.lt_trichotomy rank other with hless | rfl | hmore
  · rw [Nat.compare_eq_lt.mpr hless, Int.compare_eq_lt.mpr (by omega),
      Int.compare_eq_gt.mpr (by omega)]
    exact ⟨rfl, rfl⟩
  · rw [Nat.compare_eq_eq.mpr rfl, Int.compare_eq_eq.mpr rfl, Int.compare_eq_eq.mpr rfl]
    exact ⟨rfl, rfl⟩
  · rw [Nat.compare_eq_gt.mpr hmore, Int.compare_eq_gt.mpr (by omega),
      Int.compare_eq_lt.mpr (by omega)]
    exact ⟨rfl, rfl⟩

/-- A smaller rank lies between the larger one and its opposite, with either sign. -/
theorem signedRank_between (negative : Bool) {rank other : Nat} (h : rank < other) :
    signedRank negative rank < signedRank false other ∧
      signedRank true other < signedRank negative rank := by
  cases negative <;> simp [signedRank] <;> omega

/-- Doubles compare like their ranks with the sign. -/
theorem compare_partsOf (negative other : Bool) {rank rank' : Nat} (h : rank ≤ infinityRank)
    (h' : rank' ≤ infinityRank) :
    (partsOf negative rank).compare (partsOf other rank') =
      some (compare (signedRank negative rank) (signedRank other rank')) := by
  have hless {a b : Int} (h : a < b) : some Ordering.lt = some (compare a b) := by
    rw [Int.compare_eq_lt.mpr h]
  have hmore {a b : Int} (h : b < a) : some Ordering.gt = some (compare a b) := by
    rw [Int.compare_eq_gt.mpr h]
  have hpos : 0 < infinityRank := by decide
  -- in three cases both are zero, finite or infinite; in the others the sign of the one with the
  -- larger rank decides
  rcases rank_cases h with rfl | ⟨hne, hfinite⟩ | rfl
  · rcases rank_cases h' with rfl | ⟨hne', hfinite'⟩ | rfl
    · cases negative <;> cases other <;> rfl
    · have hbetween := signedRank_between negative (Nat.pos_of_ne_zero hne')
      rw [partsOf_finite _ hne' hfinite']
      cases other with
      | false => exact hless hbetween.1
      | true => exact hmore hbetween.2
    · have hbetween := signedRank_between negative hpos
      cases other with
      | false => exact hless hbetween.1
      | true => exact hmore hbetween.2
  · rw [partsOf_finite _ hne hfinite]
    rcases rank_cases h' with rfl | ⟨hne', hfinite'⟩ | rfl
    · have hbetween := signedRank_between other (Nat.pos_of_ne_zero hne)
      cases negative with
      | false => exact hmore hbetween.1
      | true => exact hless hbetween.2
    · have hmantissas := compare_mantissas rank rank'
      have hsigned := compare_signedRank rank rank'
      rw [partsOf_finite _ hne' hfinite']
      cases negative <;> cases other
      case false.false => exact congrArg some (hmantissas.trans hsigned.1.symm)
      case true.true =>
        exact congrArg some ((congrArg Ordering.swap hmantissas).trans hsigned.2.symm)
      case false.true => exact hmore (by simp [signedRank]; omega)
      case true.false => exact hless (by simp [signedRank]; omega)
    · have hbetween := signedRank_between negative hfinite
      cases other with
      | false => exact hless hbetween.1
      | true => exact hmore hbetween.2
  · rcases rank_cases h' with rfl | ⟨hne', hfinite'⟩ | rfl
    · have hbetween := signedRank_between other hpos
      cases negative with
      | false => exact hmore hbetween.1
      | true => exact hless hbetween.2
    · have hbetween := signedRank_between other hfinite'
      rw [partsOf_finite _ hne' hfinite']
      cases negative with
      | false => exact hmore hbetween.1
      | true => exact hless hbetween.2
    · cases negative <;> cases other <;> rfl

/-- Two doubles that are numbers are equal if they are the same or if both are zero. -/
theorem beq_iff {x y : Float} (hx : rankOf x ≤ infinityRank) (hy : rankOf y ≤ infinityRank) :
    (x == y) = true ↔ x = y ∨ rankOf x = 0 ∧ rankOf y = 0 := by
  have hbeq : (x == y) = (x.toModel.unpack.compare y.toModel.unpack == some .eq) := rfl
  rw [hbeq, unpack_toModel, unpack_toModel, compare_partsOf _ _ hx hy, beq_iff_eq, Option.some_inj,
    Int.compare_eq_eq]
  constructor
  · intro hsigned
    by_cases hzero : rankOf x = 0 ∧ rankOf y = 0
    · exact Or.inr hzero
    · have hparts : isNegative x = isNegative y ∧ rankOf x = rankOf y := by
        cases hneg : isNegative x <;> cases hneg' : isNegative y <;>
          simp only [hneg, hneg', signedRank] at hsigned <;> grind
      exact Or.inl (eq_of_rankOf_eq hparts.1 hparts.2)
  · rintro (rfl | ⟨hzero, hzero'⟩)
    · rfl
    · rw [hzero, hzero']
      cases isNegative x <;> cases isNegative y <;> rfl

/-- The order of doubles without a sign is that of their ranks. -/
theorem ofRank_le_ofRank {rank other : Nat} (h : rank ≤ infinityRank) (h' : other ≤ infinityRank) :
    ofRank false rank ≤ ofRank false other ↔ rank ≤ other := by
  have hle : ofRank false rank ≤ ofRank false other ↔ ((ofRank false rank).toModel.unpack.compare
      (ofRank false other).toModel.unpack).any (·.isLE) = true := decide_eq_true_iff
  rw [hle, unpack_ofRank _ h, unpack_ofRank _ h', compare_partsOf _ _ h h',
    (compare_signedRank rank other).1, Option.any_some, Nat.isLE_compare]

/-- So is the strict order. -/
theorem ofRank_lt_ofRank {rank other : Nat} (h : rank ≤ infinityRank) (h' : other ≤ infinityRank) :
    ofRank false rank < ofRank false other ↔ rank < other := by
  have hlt : ofRank false rank < ofRank false other ↔ ((ofRank false rank).toModel.unpack.compare
      (ofRank false other).toModel.unpack == some .lt) = true := decide_eq_true_iff
  rw [hlt, unpack_ofRank _ h, unpack_ofRank _ h', compare_partsOf _ _ h h',
    (compare_signedRank rank other).1, beq_iff_eq, Option.some_inj, Nat.compare_eq_lt]

/-- What is equal to a double is a number. -/
theorem rankOf_le_of_beq {x y : Float} (h : (x == y) = true) : rankOf x ≤ infinityRank := by
  refine Nat.not_lt.mp fun hbehind => ?_
  have hbeq : (x == y) = (x.toModel.unpack.compare y.toModel.unpack == some .eq) := rfl
  rw [hbeq, unpack_toModel x, partsOf_of_lt _ hbehind] at h
  cases h

/-- What has an absolute value below a double is a number. -/
theorem rankOf_le_of_abs_lt {x y : Float} (h : x.abs < y) : rankOf x ≤ infinityRank := by
  refine Nat.not_lt.mp fun hbehind => ?_
  have habs : x.abs.toModel.unpack = .notANumber := by
    have hparts : x.toModel.unpack.abs = .notANumber := by
      rw [unpack_toModel, partsOf_of_lt _ hbehind]
      rfl
    have hpack : x.abs.toModel = Float.Model.pack x.toModel.unpack.abs := rfl
    rw [hpack, hparts]
    rfl
  have hlt : x.abs < y ↔ (x.abs.toModel.unpack.compare y.toModel.unpack == some .lt) = true :=
    decide_eq_true_iff
  rw [hlt, habs] at h
  cases h

/-- The doubles that are no numbers have the ranks behind infinity. -/
theorem isNaN_iff {x : Float} : x.isNaN = true ↔ infinityRank < rankOf x := by
  have hnan : x.isNaN = (partsOf (isNegative x) (rankOf x)).isNaN :=
    congrArg UnpackedFloat.isNaN (unpack_toModel x)
  rw [hnan]
  by_cases hbehind : infinityRank < rankOf x
  · rw [partsOf_of_lt _ hbehind]
    exact iff_of_true rfl hbehind
  · refine iff_of_false ?_ hbehind
    rcases rank_cases (Nat.not_lt.mp hbehind) with hzero | ⟨hne, hfinite⟩ | hinfinity
    · rw [hzero]
      exact Bool.false_ne_true
    · rw [partsOf_finite _ hne hfinite]
      exact Bool.false_ne_true
    · rw [hinfinity]
      exact Bool.false_ne_true

/-- The finite doubles have the ranks below infinity. -/
theorem isFinite_iff {x : Float} : x.isFinite = true ↔ rankOf x < infinityRank := by
  have hfin : x.isFinite = (partsOf (isNegative x) (rankOf x)).isFinite :=
    congrArg UnpackedFloat.isFinite (unpack_toModel x)
  rw [hfin]
  by_cases hbehind : infinityRank < rankOf x
  · rw [partsOf_of_lt _ hbehind]
    exact iff_of_false Bool.false_ne_true (by omega)
  · rcases rank_cases (Nat.not_lt.mp hbehind) with hzero | ⟨hne, hfinite⟩ | hinfinity
    · rw [hzero]
      exact iff_of_true rfl (by decide)
    · rw [partsOf_finite _ hne hfinite]
      exact iff_of_true rfl hfinite
    · rw [hinfinity]
      exact iff_of_false Bool.false_ne_true (Nat.lt_irrefl _)

end Reckoner.Number
