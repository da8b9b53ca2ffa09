import Reckoner.Proofs.NumberReading
import Reckoner.Proofs.ShortestDecimal

/-!
# Written numbers

Every form in which the magnitude of a double is written starts with a digit, is plain, and is read
as a decimal with the rank of the double. The brief form puts a minus in front of the doubles that
are negative and not zero.
-/

namespace Reckoner.Number

open Reckoner.Text

/-- A text that starts with a digit and is read as a decimal of a rank. -/
structure Writes (cs : List Char) (rank : Nat) : Prop where
  /-- It starts with a digit. -/
  starts : ∃ c rest, cs = c :: rest ∧ isDigit c = true
  /-- It is plain. -/
  plain : ∀ c ∈ cs, isPlain c = true
  /-- It is read as a decimal of the rank. -/
  decimal : ∃ d, decimalOf? cs = some d ∧ d.rank = rank

/-- With a sign it is read as the double with the sign and the rank. -/
theorem Writes.read?_signed {cs : List Char} {rank : Nat} (h : Writes cs rank) (negative : Bool) :
    read? (signed negative cs) = some (ofRank negative rank) := by
  obtain ⟨c, rest, rfl, hc⟩ := h.starts
  obtain ⟨d, hd, rfl⟩ := h.decimal
  rw [signed, Number.read?_signed (Or.inl hc) fun d hd => h.plain d (List.mem_cons_of_mem c hd), hd,
    Option.map_some]

/-- What may stand behind the digits of a number, with the power of ten that it stands for. -/
structure Ends (rest : List Char) (power : Int) : Prop where
  /-- It is read as the power. -/
  reads : powerBehind? rest = some power
  /-- It is plain. -/
  plain : ∀ c ∈ rest, isPlain c = true
  /-- It starts with neither a digit nor a point. -/
  stops : ∀ c ∈ rest.head?, isDigit c = false ∧ c ≠ '.'

/-- Nothing stands for the power zero. -/
theorem ends_nil : Ends [] 0 :=
  ⟨rfl, List.forall_mem_nil _, fun _ hc => nomatch hc⟩

section

variable {whole fraction rest : List Char} {power : Int}

/-- A row of digits is plain. -/
theorem isPlain_of_digits (h : ∀ c ∈ whole, isDigit c = true) : ∀ c ∈ whole, isPlain c = true :=
  fun c hc => isPlain_of_isDigit (h c hc)

/-- Digits without a point. -/
theorem writes_digits (hwhole : ∀ c ∈ whole, isDigit c = true) (hsome : whole ≠ [])
    (hrest : Ends rest power) : Writes (whole ++ rest) (Decimal.rank ⟨naturalOf whole, power⟩) := by
  obtain ⟨first, others, rfl⟩ := List.exists_cons_of_ne_nil hsome
  refine ⟨⟨first, others ++ rest, rfl, hwhole first List.mem_cons_self⟩, ?_, ?_⟩
  · exact List.forall_mem_append.mpr ⟨isPlain_of_digits hwhole, hrest.plain⟩
  · have hread := decimalOf?_of_splitPoint (splitPoint_digits hwhole hrest.stops) (by simp)
    rw [hrest.reads, List.append_nil, Option.map_some] at hread
    exact ⟨_, hread, congrArg (fun exponent => Decimal.rank ⟨_, exponent⟩) (Int.sub_zero power)⟩

/-- Digits with a point behind the first of them. -/
theorem writes_pointed (hwhole : ∀ c ∈ whole, isDigit c = true) (hsome : whole ≠ [])
    (hfraction : ∀ c ∈ fraction, isDigit c = true) (hrest : Ends rest power) :
    Writes (whole ++ '.' :: (fraction ++ rest))
      (Decimal.rank ⟨naturalOf (whole ++ fraction), power - fraction.length⟩) := by
  have hsplit := splitPoint_pointed hwhole hfraction fun c hc => (hrest.stops c hc).1
  have hread := decimalOf?_of_splitPoint hsplit (List.append_ne_nil_of_left_ne_nil hsome _)
  rw [hrest.reads, Option.map_some] at hread
  obtain ⟨first, others, rfl⟩ := List.exists_cons_of_ne_nil hsome
  refine ⟨⟨first, _, rfl, hwhole first List.mem_cons_self⟩, ?_, ⟨_, hread, rfl⟩⟩
  refine List.forall_mem_append.mpr ⟨isPlain_of_digits hwhole, List.forall_mem_cons.mpr ⟨rfl, ?_⟩⟩
  exact List.forall_mem_append.mpr ⟨isPlain_of_digits hfraction, hrest.plain⟩

end

/-- The digits of a number are digits. -/
theorem isDigit_of_mem_naturalText {n : Nat} {c : Char} (h : c ∈ naturalText n) :
    isDigit c = true :=
  Nat.isDigit_of_mem_toDigits (by decide) (by decide) h

/-- A number has digits. -/
theorem naturalText_ne_nil (n : Nat) : naturalText n ≠ [] :=
  Nat.toDigits_ne_nil

/-- The digits of a number have its value. -/
theorem naturalOf_naturalText (n : Nat) : naturalOf (naturalText n) = n :=
  Nat.ofDigitChars_ten_toDigits

/-- Zeros at the end multiply by a power of ten. -/
theorem naturalOf_append_zeros (digits : List Char) (zeros : Nat) :
    naturalOf (digits ++ List.replicate zeros '0') = naturalOf digits * 10 ^ zeros := by
  rw [naturalOf_eq_ofDigitChars, Nat.ofDigitChars_append, Nat.ofDigitChars_replicate_zero,
    Nat.mul_comm, naturalOf_eq_ofDigitChars]

/-- Zeros in front do not matter. -/
theorem naturalOf_zeros_append (zeros : Nat) (digits : List Char) :
    naturalOf (List.replicate zeros '0' ++ digits) = naturalOf digits := by
  rw [naturalOf_eq_ofDigitChars, Nat.ofDigitChars_append, Nat.ofDigitChars_replicate_zero,
    Nat.mul_zero, naturalOf_eq_ofDigitChars]

/-- A sign and digits are read as a power. -/
theorem powerOf?_signed {digits : List Char} (h : ∀ c ∈ digits, isDigit c = true)
    (hsome : digits ≠ []) (power : Int) (hvalue : naturalOf digits = power.natAbs) :
    powerOf? ((if power < 0 then '-' else '+') :: digits) = some power := by
  have hsplit : splitSign ((if power < 0 then '-' else '+') :: digits) =
      (decide (power < 0), digits) := by
    by_cases hneg : power < 0
    · rw [if_pos hneg, decide_eq_true hneg]
      rfl
    · rw [if_neg hneg, decide_eq_false hneg]
      rfl
  obtain ⟨first, rest, rfl⟩ := List.exists_cons_of_ne_nil hsome
  rw [powerOf?, hsplit]
  simp only [if_pos (List.all_eq_true.mpr h), hvalue, decide_eq_true_eq, Option.some_inj]
  split <;> omega

/-- A power of ten is read as itself. -/
theorem ends_exponentText (power : Int) : Ends (exponentText power) power := by
  have hdigits : ∀ c ∈ naturalText power.natAbs, isDigit c = true :=
    fun _ => isDigit_of_mem_naturalText
  rw [exponentText]
  -- the digits, with a zero in front if there is only one
  obtain ⟨size, hsize, hall, hsome, hvalue⟩ : ∃ size,
      (if (naturalText power.natAbs).length < 2 then '0' :: naturalText power.natAbs
        else naturalText power.natAbs) = size ∧
      (∀ c ∈ size, isDigit c = true) ∧ size ≠ [] ∧ naturalOf size = power.natAbs := by
    split
    · exact ⟨_, rfl, List.forall_mem_cons.mpr ⟨rfl, hdigits⟩, List.cons_ne_nil _ _,
        (naturalOf_zeros_append 1 _).trans (naturalOf_naturalText _)⟩
    · exact ⟨_, rfl, hdigits, naturalText_ne_nil _, naturalOf_naturalText _⟩
  rw [hsize]
  refine ⟨powerOf?_signed hall hsome power hvalue, ?_, ?_⟩
  · refine List.forall_mem_cons.mpr ⟨rfl, List.forall_mem_cons.mpr ⟨?_, isPlain_of_digits hall⟩⟩
    split <;> rfl
  · rintro c ⟨⟩
    exact ⟨rfl, by decide⟩

/-- Digits are divided at a place without loss. -/
theorem writes_divided {digits rest : List Char} (h : ∀ c ∈ digits, isDigit c = true)
    (place : Nat) (hplace : 0 < place) (hlength : place ≤ digits.length) {power : Int}
    (hrest : Ends rest power) :
    Writes (pointed digits place ++ rest)
      (Decimal.rank ⟨naturalOf digits, power - (digits.length - place : Nat)⟩) := by
  have hfront : digits.take place ≠ [] := by
    rw [← List.length_pos_iff, List.length_take]
    omega
  have hback : ∀ c ∈ digits.drop place, isDigit c = true :=
    fun c hc => h c (List.mem_of_mem_drop hc)
  have hwrites := writes_pointed (fun c hc => h c (List.mem_of_mem_take hc)) hfront hback hrest
  rw [List.take_append_drop, List.length_drop] at hwrites
  rw [pointed, List.append_assoc, List.cons_append]
  exact hwrites

/-- A row of zeros is a row of digits. -/
theorem isDigit_of_mem_zeros (zeros : Nat) :
    ∀ c ∈ List.replicate zeros '0', isDigit c = true := by
  intro c hc
  rw [List.eq_of_mem_replicate hc]
  rfl

/-- Digits with zeros behind them are the whole number of a decimal. -/
theorem writes_whole {digits : List Char} (h : ∀ c ∈ digits, isDigit c = true)
    (hsome : digits ≠ []) (zeros : Nat) :
    Writes (digits ++ List.replicate zeros '0' ++ ['.', '0'])
      (Decimal.rank ⟨naturalOf digits, zeros⟩) := by
  have hfront := List.forall_mem_append.mpr ⟨h, isDigit_of_mem_zeros zeros⟩
  have hplace : (zeros : Int) - (zeros + 1 : Nat) = 0 - ((1 : Nat) : Int) := by omega
  -- the last zero stands behind the point
  have hrank := Decimal.rank_mul_powerOfTen (naturalOf digits) zeros (zeros + 1)
  have hwrites := writes_pointed hfront (List.append_ne_nil_of_left_ne_nil hsome _)
    (isDigit_of_mem_zeros 1) ends_nil
  rwa [naturalOf_append_zeros, naturalOf_append_zeros, Nat.mul_assoc, ← Nat.pow_add,
    List.length_replicate, ← hplace, hrank] at hwrites

/-- Digits with zeros in front of them are the fraction of a decimal. -/
theorem writes_fraction {digits : List Char} (h : ∀ c ∈ digits, isDigit c = true) (zeros : Nat) :
    Writes ('0' :: '.' :: List.replicate zeros '0' ++ digits)
      (Decimal.rank ⟨naturalOf digits, 0 - (zeros + digits.length : Nat)⟩) := by
  have hback := List.forall_mem_append.mpr ⟨isDigit_of_mem_zeros zeros, h⟩
  have hwrites := writes_pointed (isDigit_of_mem_zeros 1) (List.cons_ne_nil _ _) hback ends_nil
  rwa [naturalOf_zeros_append, naturalOf_zeros_append, List.length_append,
    List.length_replicate, List.append_nil] at hwrites

/-- A decimal is written for its rank, and in positional form it is one lexeme. -/
theorem text_spec (d : Decimal) :
    Writes d.text d.rank ∧ (-4 < d.order → d.order ≤ 16 → Token.IsNumber d.text) := by
  obtain ⟨n, exponent⟩ := d
  have hvalue := naturalOf_naturalText n
  have hall : ∀ c ∈ naturalText n, isDigit c = true := fun _ => isDigit_of_mem_naturalText
  have hsome := naturalText_ne_nil n
  have hpos := List.length_pos_iff.mpr hsome
  have horder : Decimal.order ⟨n, exponent⟩ = (naturalText n).length + exponent := rfl
  rw [Decimal.text, horder]
  dsimp only
  generalize naturalText n = digits at *
  have hexponent {p : Int} (h : p = exponent) :
      Decimal.mk (naturalOf digits) p = ⟨n, exponent⟩ := by
    rw [hvalue, h]
  split
  next hfar =>
    refine ⟨?_, fun hlow hhigh => by omega⟩
    split
    next hone =>
      have hwrites := writes_digits hall hsome
        (ends_exponentText (exponent + (digits.length - 1 : Int)))
      rwa [hexponent (by omega)] at hwrites
    next hmany =>
      have hwrites := writes_divided hall 1 (by omega) hpos
        (ends_exponentText (exponent + (digits.length - 1 : Int)))
      rwa [hexponent (by omega)] at hwrites
  next hnear =>
    split
    next hwhole =>
      have hwrites := writes_whole hall hsome exponent.toNat
      rw [hexponent (by omega)] at hwrites
      exact ⟨hwrites, fun _ _ => Or.inr ⟨_, ['0'], rfl,
        List.forall_mem_append.mpr ⟨hall, isDigit_of_mem_zeros _⟩, isDigit_of_mem_zeros 1⟩⟩
    next hfraction =>
      split
      next hfirst =>
        have hwrites := writes_divided hall
          (exponent + (digits.length - 1 : Int) + 1).toNat (by omega) (by omega) ends_nil
        rw [hexponent (by omega), List.append_nil] at hwrites
        exact ⟨hwrites, fun _ _ => Or.inr ⟨_, _, rfl, fun c hc => hall c (List.mem_of_mem_take hc),
          fun c hc => hall c (List.mem_of_mem_drop hc)⟩⟩
      next hbehind =>
        have hwrites := writes_fraction hall
          (-(exponent + (digits.length - 1 : Int)) - 1).toNat
        rw [hexponent (by omega)] at hwrites
        exact ⟨hwrites, fun _ _ => Or.inr ⟨['0'], _, rfl, isDigit_of_mem_zeros 1,
          List.forall_mem_append.mpr ⟨isDigit_of_mem_zeros _, hall⟩⟩⟩

/-- The full form of a double that is not zero is written for its rank, and between `10 ^ -4` and
`10 ^ 16` it is one lexeme. -/
theorem rankText_spec {rank : Nat} (hne : rank ≠ 0) (h : rank < infinityRank) :
    Writes (rankText rank) rank ∧ (Decimal.rank ⟨1, -4⟩ ≤ rank → rank < Decimal.rank ⟨1, 16⟩ →
      Token.IsNumber (rankText rank)) := by
  obtain ⟨hrank, horder⟩ := Decimal.trimZeros_spec 17 (shortest rank)
  obtain ⟨hwrites, hlexeme⟩ := text_spec ((shortest rank).trimZeros 17)
  rw [hrank, rank_shortest hne h] at hwrites
  rw [horder] at hlexeme
  rw [rankText, if_neg hne]
  refine ⟨hwrites, fun hlow hhigh => ?_⟩
  obtain ⟨hfirst, hlast⟩ := order_shortest hlow hhigh
  exact hlexeme hfirst hlast

/-- The rank of a natural number of at most fifteen digits. -/
theorem rank_natural {n : Nat} (h : n < 10 ^ 15) :
    Decimal.rank ⟨n, 0⟩ = nearestRank (n * unitsPerOne) 1 := by
  rw [Decimal.rank_eq]
  by_cases hzero : n = 0
  · rw [if_pos (Or.inl hzero), hzero, Nat.zero_mul]
    rfl
  · have hcount := (digitCount_le_iff (n := n) (by decide)).mpr h
    have horder : Decimal.order ⟨n, 0⟩ = digitCount n := Int.add_zero _
    rw [if_neg (not_or.mpr ⟨hzero, by omega⟩), if_neg (by omega)]
    simp

/-- The number one has units. -/
theorem unitsPerOne_pos : 0 < unitsPerOne := by
  decide +kernel

/-- A finite double is written with its sign and its magnitude. -/
theorem datum_of_finite {x : Float} (h : rankOf x < infinityRank) :
    datum x = .finite (isNegative x) (magnitudeOfRank (rankOf x)) := by
  rw [datum]
  exact if_pos h

/-- A whole double of at most fifteen digits is written as a natural number in brief form. -/
theorem brief_of_whole {x : Float} (h : rankOf x < infinityRank) {n : Nat}
    (hwhole : magnitudeOfRank (rankOf x) = n * unitsPerOne) (hn : n < 10 ^ 15) :
    brief x = signed (isNegative x && n != 0) (naturalText n) := by
  have hwhole? : whole? (magnitudeOfRank (rankOf x)) = some n := by
    rw [whole?, hwhole, Nat.mul_mod_left, if_pos rfl, Nat.mul_div_cancel n unitsPerOne_pos]
  rw [brief, datum_of_finite h]
  dsimp only
  rw [hwhole?]
  exact if_pos hn

/-- Any other finite double is written in full form. -/
theorem brief_of_not_whole {x : Float} (h : rankOf x < infinityRank)
    (hother : ∀ n, magnitudeOfRank (rankOf x) = n * unitsPerOne → ¬ n < 10 ^ 15) :
    brief x = signed (isNegative x) (rankText (rankOf x)) := by
  have hfull : full x = signed (isNegative x) (rankText (rankOf x)) := by
    rw [full, datum_of_finite h]
  rw [brief, datum_of_finite h]
  dsimp only
  rw [hfull]
  split
  next n hn =>
    rw [whole?] at hn
    split at hn
    next hrest =>
      cases hn
      exact if_neg (hother _ (Nat.div_mul_cancel (Nat.dvd_of_mod_eq_zero hrest)).symm)
    next => cases hn
  next => rfl

/-- The brief form of a finite double is a written form of its rank, with a minus for the negative
ones but zero. From `10 ^ -4` up to `10 ^ 16`, and for zero, the written form is one lexeme. -/
theorem brief_of_finite {x : Float} (h : rankOf x < infinityRank) :
    ∃ cs, brief x = signed (isNegative x && rankOf x != 0) cs ∧ Writes cs (rankOf x) ∧
      (rankOf x = 0 ∨ Decimal.rank ⟨1, -4⟩ ≤ rankOf x ∧ rankOf x < Decimal.rank ⟨1, 16⟩ →
        Token.IsNumber cs) := by
  have hzero : rankOf x = 0 ↔ magnitudeOfRank (rankOf x) = 0 := by
    constructor
    · intro hrank
      rw [hrank]
      rfl
    · intro hmagnitude
      by_contra hne
      exact Nat.ne_of_gt (magnitudeOfRank_pos hne) hmagnitude
  by_cases hwhole : ∃ n, magnitudeOfRank (rankOf x) = n * unitsPerOne ∧ n < 10 ^ 15
  · obtain ⟨n, hn, hsmall⟩ := hwhole
    have hdigits : ∀ c ∈ naturalText n, isDigit c = true := fun _ => isDigit_of_mem_naturalText
    have hsign : (n != 0) = (rankOf x != 0) := by
      rw [Bool.eq_iff_iff, bne_iff_ne, bne_iff_ne, Ne, Ne, hzero, hn, Nat.mul_eq_zero,
        or_iff_left (Nat.ne_of_gt unitsPerOne_pos)]
    have hwrites := writes_digits hdigits (naturalText_ne_nil n) ends_nil
    rw [List.append_nil, naturalOf_naturalText, rank_natural hsmall, ← hn,
      nearestRank_magnitudeOfRank h] at hwrites
    exact ⟨naturalText n, hsign ▸ brief_of_whole h hn hsmall, hwrites,
      fun _ => Or.inl ⟨naturalText_ne_nil n, hdigits⟩⟩
  · have hne : rankOf x ≠ 0 := by
      intro hrank
      exact hwhole ⟨0, by rw [hzero.mp hrank, Nat.zero_mul], by decide⟩
    obtain ⟨hwrites, hlexeme⟩ := rankText_spec hne h
    refine ⟨rankText (rankOf x), ?_, hwrites, ?_⟩
    · rw [brief_of_not_whole h fun n hn hsmall => hwhole ⟨n, hn, hsmall⟩,
        bne_iff_ne.mpr hne, Bool.and_true]
    · rintro (hrank | ⟨hlow, hhigh⟩)
      · exact absurd hrank hne
      · exact hlexeme hlow hhigh

end Reckoner.Number
