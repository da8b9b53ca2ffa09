import Reckoner.Number.Reading
import Reckoner.Proofs.Lexemes

/-!
# Reading plain number texts

A number text of digits, points, signs and the mark of a power of ten has no blanks and no
underscores, so it is read as it stands. What stands before the point, behind it and behind the
mark is found by the first characters that are no digits.
-/

namespace Reckoner.Number

open Reckoner.Text

/-- The characters of a number text that is no name. -/
def isPlain (c : Char) : Bool :=
  isDigit c || c == '.' || c == 'e' || c == '-' || c == '+'

/-- The plain characters by their codes. -/
theorem isPlain_iff {c : Char} : isPlain c = true ↔
    48 ≤ c.toNat ∧ c.toNat ≤ 57 ∨ c = '.' ∨ c = 'e' ∨ c = '-' ∨ c = '+' := by
  simp only [isPlain, Bool.or_eq_true, Token.isDigit_iff, beq_iff_eq, or_assoc]

/-- A digit is plain. -/
theorem isPlain_of_isDigit {c : Char} (h : isDigit c = true) : isPlain c = true :=
  isPlain_iff.mpr (Or.inl (Token.isDigit_iff.mp h))

/-- A plain character stands for itself, and is no blank and no underscore. -/
theorem plainChar_of_isPlain {c : Char} (h : isPlain c = true) :
    plainChar c = c ∧ isPadding c = false ∧ c ≠ '_' := by
  have hcode : 43 ≤ c.toNat ∧ c.toNat ≤ 101 ∧ c.toNat ≠ 95 := by
    rcases isPlain_iff.mp h with h | rfl | rfl | rfl | rfl
    · omega
    all_goals decide
  have hunderscore : c ≠ '_' := by
    rintro rfl
    exact hcode.2.2 rfl
  refine ⟨?_, ?_, hunderscore⟩
  · rw [plainChar, if_pos (by omega)]
  · have hspace : c ≠ ' ' := by
      rintro rfl
      exact absurd hcode.1 (by decide)
    rw [isPadding, Bool.or_eq_false_iff, Bool.and_eq_false_iff, decide_eq_false_iff_not,
      decide_eq_false_iff_not, beq_eq_false_iff_ne]
    exact ⟨hspace, Or.inr (by omega)⟩

/-- Nothing is cut off where no character is. -/
theorem trimWhile_of_forall {p : Char → Bool} {cs : List Char} (h : ∀ c ∈ cs, p c = false) :
    trimWhile p cs = cs := by
  have hdrop {row : List Char} (hrow : ∀ c ∈ row, p c = false) : row.dropWhile p = row := by
    cases row with
    | nil => rfl
    | cons c row =>
      rw [List.dropWhile_cons_of_neg]
      rw [hrow c List.mem_cons_self]
      exact Bool.false_ne_true
  rw [trimWhile, hdrop h, hdrop fun c hc => h c (List.mem_reverse.mp hc), List.reverse_reverse]

/-- Characters without underscores are joined as they are. -/
theorem joinDigits?_of_forall {cs : List Char} (h : ∀ c ∈ cs, c ≠ '_') (afterDigit : Bool) :
    joinDigits? afterDigit cs = some cs := by
  fun_induction joinDigits? afterDigit cs with
  | case1 => rfl
  | case2 => exact absurd rfl (h '_' List.mem_cons_self)
  | case3 => exact absurd rfl (h '_' List.mem_cons_self)
  | case4 => exact absurd rfl (h '_' List.mem_cons_self)
  | case5 _ c cs _ _ ih => rw [ih fun d hd => h d (List.mem_cons_of_mem c hd), Option.map_some]

/-- A plain text is read as it stands. -/
theorem numeral?_of_isPlain {cs : List Char} (h : ∀ c ∈ cs, isPlain c = true) :
    numeral? (String.ofList cs) = numeralOf? cs := by
  have hsame : cs.map plainChar = cs := by
    rw [List.map_congr_left fun c hc => (plainChar_of_isPlain (h c hc)).1, List.map_id']
  rw [numeral?, String.toList_ofList, hsame,
    trimWhile_of_forall fun c hc => (plainChar_of_isPlain (h c hc)).2.1,
    joinDigits?_of_forall fun c hc => (plainChar_of_isPlain (h c hc)).2.2]
  rfl

/-- A text with a digit or a point in front is no name of a number. -/
theorem numeralOf?_signed {c : Char} (hc : isDigit c = true ∨ c = '.') (cs : List Char)
    (negative : Bool) : numeralOf? (if negative then '-' :: c :: cs else c :: cs) =
      (decimalOf? (c :: cs)).map (.decimal negative) := by
  have hcode : 46 ≤ c.toNat ∧ c.toNat ≤ 57 := by
    rcases hc with hc | rfl
    · have := Token.isDigit_iff.mp hc
      omega
    · decide
  have hother {d : Char} (hd : ¬ (46 ≤ d.toNat ∧ d.toNat ≤ 57)) : c ≠ d := by
    rintro rfl
    exact hd hcode
  have hsplit : splitSign (if negative then '-' :: c :: cs else c :: cs) = (negative, c :: cs) := by
    cases negative with
    | true => rfl
    | false =>
      rw [if_neg Bool.false_ne_true, splitSign]
      · exact fun rest heq => hother (by decide) (List.cons.inj heq).1
      · exact fun rest heq => hother (by decide) (List.cons.inj heq).1
  have hlower : c.toLower = c := by
    unfold Char.toLower
    rw [dif_neg]
    intro hupper
    have hcapital : 65 ≤ c.toNat := UInt32.le_iff_toNat_le.mp hupper.1
    omega
  have hname {d : Char} {name : List Char} (hd : ¬ (46 ≤ d.toNat ∧ d.toNat ≤ 57)) :
      (String.ofList ((c :: cs).map Char.toLower) == String.ofList (d :: name)) = false := by
    rw [beq_eq_false_iff_ne, List.map_cons, hlower]
    intro heq
    exact hother hd (List.cons.inj (String.ofList_injective heq)).1
  have hinf : (String.ofList ((c :: cs).map Char.toLower) == "inf" ||
      String.ofList ((c :: cs).map Char.toLower) == "infinity") = false :=
    Bool.or_eq_false_iff.mpr ⟨hname (d := 'i') (by decide), hname (d := 'i') (by decide)⟩
  have hnan : (String.ofList ((c :: cs).map Char.toLower) == "nan") = false :=
    hname (d := 'n') (by decide)
  rw [numeralOf?, hsplit]
  simp only [hinf, hnan, Bool.false_eq_true, if_false]

/-- A plain text with a digit or a point behind its sign is the decimal that it writes. -/
theorem read?_signed {c : Char} (hc : isDigit c = true ∨ c = '.') {cs : List Char}
    (hplain : ∀ d ∈ cs, isPlain d = true) (negative : Bool) :
    read? (String.ofList (if negative then '-' :: c :: cs else c :: cs)) =
      (decimalOf? (c :: cs)).map fun d => ofRank negative d.rank := by
  have hfirst : isPlain c = true := by
    rcases hc with hc | rfl
    · exact isPlain_of_isDigit hc
    · rfl
  have hbody : ∀ d ∈ c :: cs, isPlain d = true := List.forall_mem_cons.mpr ⟨hfirst, hplain⟩
  have hall : ∀ d ∈ (if negative then '-' :: c :: cs else c :: cs), isPlain d = true := by
    cases negative with
    | false => exact hbody
    | true => exact List.forall_mem_cons.mpr ⟨rfl, hbody⟩
  rw [read?, numeral?_of_isPlain hall, numeralOf?_signed hc, Option.map_map]
  rfl

/-- What a power of ten behind the digits is; none stands for the power zero. -/
def powerBehind? : List Char → Option Int
  | [] => some 0
  | mark :: power => if mark == 'e' || mark == 'E' then powerOf? power else none

/-- The decimal of a text with its digits and what stands behind them. -/
theorem decimalOf?_of_splitPoint {cs whole fraction rest : List Char}
    (hsplit : splitPoint cs = (whole, fraction, rest)) (hsome : whole ++ fraction ≠ []) :
    decimalOf? cs = (powerBehind? rest).map fun power =>
      ⟨naturalOf (whole ++ fraction), power - fraction.length⟩ := by
  have hnone : ¬ (whole ++ fraction).isEmpty = true := by simpa using hsome
  rw [decimalOf?, hsplit]
  simp only [if_neg hnone]
  cases rest with
  | nil =>
    simp only [powerBehind?, Option.map_some, Int.zero_sub]
  | cons mark power =>
    simp only [powerBehind?]
    split <;> rfl

/-- The digits in front end at the first character that is none. -/
theorem digits_append {front rest : List Char} (hfront : ∀ c ∈ front, isDigit c)
    (hrest : ∀ c ∈ rest.head?, isDigit c = false) :
    (front ++ rest).takeWhile isDigit = front ∧ (front ++ rest).dropWhile isDigit = rest := by
  rw [List.takeWhile_append_of_pos hfront, List.dropWhile_append_of_pos hfront]
  cases rest with
  | nil => exact ⟨List.append_nil front, rfl⟩
  | cons c rest =>
    have hstop : ¬ isDigit c = true := by simp [hrest c rfl]
    rw [List.takeWhile_cons_of_neg hstop, List.dropWhile_cons_of_neg hstop]
    exact ⟨List.append_nil front, rfl⟩

/-- Digits with a point behind them and digits behind that. -/
theorem splitPoint_pointed {whole fraction rest : List Char} (hwhole : ∀ c ∈ whole, isDigit c)
    (hfraction : ∀ c ∈ fraction, isDigit c) (hrest : ∀ c ∈ rest.head?, isDigit c = false) :
    splitPoint (whole ++ '.' :: (fraction ++ rest)) = (whole, fraction, rest) := by
  have hpoint : ∀ c ∈ ('.' :: (fraction ++ rest)).head?, isDigit c = false := by
    rintro c ⟨⟩
    rfl
  obtain ⟨htake, hdrop⟩ := digits_append hwhole hpoint
  obtain ⟨htake', hdrop'⟩ := digits_append hfraction hrest
  rw [splitPoint, htake, hdrop]
  simp only [htake', hdrop']

/-- Digits without a point. -/
theorem splitPoint_digits {whole rest : List Char} (hwhole : ∀ c ∈ whole, isDigit c)
    (hrest : ∀ c ∈ rest.head?, isDigit c = false ∧ c ≠ '.') :
    splitPoint (whole ++ rest) = (whole, [], rest) := by
  obtain ⟨htake, hdrop⟩ := digits_append hwhole fun c hc => (hrest c hc).1
  rw [splitPoint, htake, hdrop]
  split
  next behind => exact absurd rfl (hrest '.' rfl).2
  next => rfl

/-- The value of a row of digits is that of the digits in base ten. -/
theorem naturalOf_eq_ofDigitChars (digits : List Char) :
    naturalOf digits = Nat.ofDigitChars 10 digits 0 := rfl

end Reckoner.Number
