import Reckoner.Proofs.WrittenNumber
import Reckoner.Text.Lines
import Reckoner.Text.Quoted

/-!
# Texts of printable characters

A printable character is no control, no format character, and no blank but the plain space, and it
ends no line. So a text of printable characters does to a terminal nothing but take a part of one
line. Quotations are such texts whatever they quote, and so are written numbers.
-/

namespace Reckoner.Text

/-- The controls: general category Cc. -/
def isControl (c : Char) : Bool :=
  c.toNat < 0x20 || (0x7F ≤ c.toNat && c.toNat ≤ 0x9F)

/-- The first and the last code point of each run of format characters: general category Cf, for
Unicode 14. -/
def formatRuns : List (Nat × Nat) :=
  [(0xAD, 0xAD), (0x600, 0x605), (0x61C, 0x61C), (0x6DD, 0x6DD), (0x70F, 0x70F), (0x890, 0x891),
    (0x8E2, 0x8E2), (0x180E, 0x180E), (0x200B, 0x200F), (0x202A, 0x202E), (0x2060, 0x2064),
    (0x2066, 0x206F), (0xFEFF, 0xFEFF), (0xFFF9, 0xFFFB), (0x110BD, 0x110BD), (0x110CD, 0x110CD),
    (0x13430, 0x13438), (0x1BCA0, 0x1BCA3), (0x1D173, 0x1D17A), (0xE0001, 0xE0001),
    (0xE0020, 0xE007F)]

/-- The format characters. -/
def isFormat (c : Char) : Bool :=
  formatRuns.any fun (first, last) => first ≤ c.toNat && c.toNat ≤ last

/-- Whether a run of code points starts below a bound. -/
def startsBelow (bound : Nat) (run : Nat × Nat) : Bool :=
  Nat.blt run.1 bound

/-- Whether each of some ascending runs of code points lies between two printable runs, by one walk
over the bounds; the flag tells whether the walk is inside a printable run. -/
def inGaps : List (Nat × Nat) → Bool → List Nat → Bool
  | [], _, _ => true
  | _ :: _, printable, [] => !printable
  | run :: runs, printable, bound :: bounds =>
    ((run :: runs).takeWhile (startsBelow bound)).all
        (fun run => !printable && Nat.blt run.2 bound) &&
      inGaps ((run :: runs).dropWhile (startsBelow bound)) (!printable) bounds

/-- Ascending runs of code points beyond ASCII that meet no printable run. -/
def Gaps (runs : List (Nat × Nat)) : Prop :=
  (∀ run ∈ runs, 0x7F ≤ run.1) ∧ runs.Pairwise (·.1 ≤ ·.1) ∧
    inGaps runs false printableBounds = true

instance (runs : List (Nat × Nat)) : Decidable (Gaps runs) :=
  inferInstanceAs (Decidable (_ ∧ _))

/-- Every character of a text passes a test. -/
def Every (p : Char → Bool) (text : String) : Prop :=
  ∀ c ∈ text.toList, p c = true

instance (p : Char → Bool) (text : String) : Decidable (Every p text) :=
  decidable_of_iff (text.toList.all p = true) List.all_eq_true

/-- Whether a character keeps to its line. -/
def keepsLine (c : Char) : Bool :=
  !isLineBoundary c

/-- A text that is shown as it is, on one line. -/
structure Inert (text : String) : Prop where
  /-- Its characters are printable. -/
  printable : Every isPrintable text
  /-- None of them is a control. -/
  controls : Every (!isControl ·) text
  /-- None of them is a format character. -/
  formats : Every (!isFormat ·) text
  /-- The only blank among them is the space; the separators of lines and paragraphs are blanks. -/
  blanks : Every (fun c => !isBlank c || c == ' ') text
  /-- None of them ends a line. -/
  line : Every keepsLine text

section

variable {p q : Char → Bool} {a b text : String} {c : Char}

/-! ## Printable characters -/

/-- The ASCII characters from the space to the tilde are printable. -/
theorem isPrintable_of_ascii (h : 0x20 ≤ c.toNat ∧ c.toNat < 0x7F) : isPrintable c = true := by
  rw [isPrintable]
  simp only [h.2, if_true, decide_eq_true_eq]
  exact h.1

/-- The ASCII characters below the space are not printable. -/
theorem isPrintable_of_lt (h : c.toNat < 0x20) : isPrintable c = false := by
  rw [isPrintable]
  simp only [if_pos (Nat.lt_trans h (by decide : 0x20 < 0x7F)), decide_eq_false_iff_not]
  omega

/-- Behind the runs that start below a bound, none does. -/
theorem le_of_mem_dropWhile {runs : List (Nat × Nat)} (hsorted : runs.Pairwise (·.1 ≤ ·.1))
    {run : Nat × Nat} {bound : Nat} (h : run ∈ runs.dropWhile (startsBelow bound)) :
    bound ≤ run.1 := by
  induction runs with
  | nil => cases h
  | cons first rest ih =>
    obtain ⟨hfirst, hrest⟩ := List.pairwise_cons.mp hsorted
    by_cases hbelow : startsBelow bound first = true
    · rw [List.dropWhile_cons_of_pos hbelow] at h
      exact ih hrest h
    · rw [List.dropWhile_cons_of_neg hbelow] at h
      rw [startsBelow, Nat.blt_eq, Nat.not_lt] at hbelow
      rcases List.mem_cons.mp h with rfl | h
      · exact hbelow
      · exact hbelow.trans (hfirst run h)

/-- The walk counts the bounds that a code point of a run does not fall short of. -/
theorem length_takeWhile_of_inGaps {runs : List (Nat × Nat)} {printable : Bool} {bounds : List Nat}
    (hsorted : runs.Pairwise (·.1 ≤ ·.1)) (h : inGaps runs printable bounds = true)
    {run : Nat × Nat} (hrun : run ∈ runs) {n : Nat} (hn : run.1 ≤ n ∧ n ≤ run.2) :
    (bounds.takeWhile (· ≤ n)).length % 2 = if printable then 1 else 0 := by
  induction bounds generalizing runs printable with
  | nil =>
    obtain ⟨first, rest, rfl⟩ := List.exists_cons_of_ne_nil (List.ne_nil_of_mem hrun)
    rw [inGaps, Bool.not_eq_true'] at h
    rw [h]
    rfl
  | cons bound bounds ih =>
    obtain ⟨first, rest, rfl⟩ := List.exists_cons_of_ne_nil (List.ne_nil_of_mem hrun)
    rw [inGaps, Bool.and_eq_true, List.all_eq_true] at h
    obtain ⟨hnow, hlater⟩ := h
    rw [← List.takeWhile_append_dropWhile (p := startsBelow bound) (l := first :: rest),
      List.mem_append] at hrun
    rcases hrun with hrun | hrun
    · have hends := hnow run hrun
      rw [Bool.and_eq_true, Bool.not_eq_true', Nat.blt_eq] at hends
      rw [List.takeWhile_cons_of_neg (by simpa using Nat.lt_of_le_of_lt hn.2 hends.2), hends.1]
      rfl
    · have hstarts := le_of_mem_dropWhile hsorted hrun
      have hrest := ih (hsorted.sublist (List.dropWhile_sublist _)) hlater hrun
      rw [List.takeWhile_cons_of_pos (by simpa using hstarts.trans hn.1), List.length_cons]
      -- behind one more bound the flag and the parity have changed
      cases printable with
      | true =>
        change _ % 2 = 0 at hrest
        change (_ + 1) % 2 = 1
        omega
      | false =>
        change _ % 2 = 1 at hrest
        change (_ + 1) % 2 = 0
        omega

/-- What stands in a gap is not printable. -/
theorem Gaps.isPrintable {runs : List (Nat × Nat)} (h : Gaps runs) {run : Nat × Nat}
    (hrun : run ∈ runs) (hc : run.1 ≤ c.toNat ∧ c.toNat ≤ run.2) : isPrintable c = false := by
  obtain ⟨hbeyond, hsorted, hwalk⟩ := h
  have heven := length_takeWhile_of_inGaps hsorted hwalk hrun hc
  rw [Text.isPrintable, if_neg (Nat.not_lt.mpr ((hbeyond run hrun).trans hc.1)), heven]
  rfl

/-- A control is not printable. -/
theorem isPrintable_of_isControl (h : isControl c = true) : isPrintable c = false := by
  have hgaps : Gaps [(0x7F, 0x9F)] := by decide +kernel
  simp only [isControl, Bool.or_eq_true, Bool.and_eq_true, decide_eq_true_eq] at h
  rcases h with hlow | hhigh
  · exact isPrintable_of_lt hlow
  · exact hgaps.isPrintable List.mem_cons_self hhigh

/-- A format character is not printable. -/
theorem isPrintable_of_isFormat (h : isFormat c = true) : isPrintable c = false := by
  have hgaps : Gaps formatRuns := by decide +kernel
  obtain ⟨run, hrun, hin⟩ := List.any_eq_true.mp h
  rw [Bool.and_eq_true, decide_eq_true_eq, decide_eq_true_eq] at hin
  exact hgaps.isPrintable hrun hin

/-- Of the blanks only the space is printable. -/
theorem isPrintable_of_isBlank (h : isBlank c = true) (hspace : c ≠ ' ') :
    isPrintable c = false := by
  have hgaps : Gaps [(0x7F, 0xA0), (0x1680, 0x1680), (0x2000, 0x200A), (0x2028, 0x2029),
      (0x202F, 0x202F), (0x205F, 0x205F), (0x3000, 0x3000)] := by
    decide +kernel
  have hcode : c.toNat ≠ 0x20 := fun hcode => hspace (Char.toNat_inj.mp hcode)
  by_cases hlow : c.toNat < 0x20
  · exact isPrintable_of_lt hlow
  · obtain ⟨run, hrun, hin⟩ : ∃ run ∈ [(0x7F, 0xA0), (0x1680, 0x1680), (0x2000, 0x200A),
        (0x2028, 0x2029), (0x202F, 0x202F), (0x205F, 0x205F), (0x3000, 0x3000)],
        run.1 ≤ c.toNat ∧ c.toNat ≤ run.2 := by
      simp only [isBlank, Bool.or_eq_true, Bool.and_eq_true, decide_eq_true_eq, beq_iff_eq] at h
      simp only [List.mem_cons, List.not_mem_nil, or_false, exists_eq_or_imp, exists_eq_left]
      omega
    exact hgaps.isPrintable hrun hin

/-- What ends a line is a blank, and not the space. -/
theorem isBlank_of_isLineBoundary (h : isLineBoundary c = true) : isBlank c = true ∧ c ≠ ' ' := by
  constructor
  · simp only [isLineBoundary, Bool.or_eq_true, Bool.and_eq_true, decide_eq_true_eq,
      beq_iff_eq] at h
    simp only [isBlank, Bool.or_eq_true, Bool.and_eq_true, decide_eq_true_eq, beq_iff_eq]
    omega
  · rintro rfl
    exact absurd h (by decide)

/-! ## Texts -/

/-- A text that passes a test passes a weaker one. -/
theorem Every.imp (h : Every p text) (hpq : ∀ c, p c = true → q c = true) : Every q text :=
  fun c hc => hpq c (h c hc)

/-- Texts behind one another pass a test exactly if each of them does. -/
theorem every_append : Every p (a ++ b) ↔ Every p a ∧ Every p b := by
  simp only [Every, String.toList_append, List.mem_append, or_imp, forall_and]

/-- A text passes a test behind one that does. -/
theorem Every.append (ha : Every p a) (hb : Every p b) : Every p (a ++ b) :=
  every_append.mpr ⟨ha, hb⟩

/-- Texts with others between them pass a test if all of them do. -/
theorem every_intercalate {separator : String} {texts : List String} (hs : Every p separator)
    (h : ∀ text ∈ texts, Every p text) : Every p (separator.intercalate texts) := by
  induction texts with
  | nil => exact List.forall_mem_nil _
  | cons first rest ih =>
    rw [List.forall_mem_cons] at h
    cases rest with
    | nil => exact h.1
    | cons next rest =>
      rw [String.intercalate_cons_cons]
      exact (h.1.append hs).append (ih h.2)

/-- A text of printable characters is shown as it is. -/
theorem inert_of_printable (h : Every isPrintable text) : Inert text where
  printable := h
  controls := h.imp fun c hc => by
    rw [Bool.not_eq_true', Bool.eq_false_iff]
    exact fun hcontrol => Bool.false_ne_true ((isPrintable_of_isControl hcontrol).symm.trans hc)
  formats := h.imp fun c hc => by
    rw [Bool.not_eq_true', Bool.eq_false_iff]
    exact fun hformat => Bool.false_ne_true ((isPrintable_of_isFormat hformat).symm.trans hc)
  blanks := h.imp fun c hc => by
    rw [Bool.or_eq_true, Bool.not_eq_true', beq_iff_eq, or_iff_not_imp_right, Bool.eq_false_iff]
    exact fun hspace hblank =>
      Bool.false_ne_true ((isPrintable_of_isBlank hblank hspace).symm.trans hc)
  line := h.imp fun c hc => by
    rw [keepsLine, Bool.not_eq_true', Bool.eq_false_iff]
    intro hends
    obtain ⟨hblank, hspace⟩ := isBlank_of_isLineBoundary hends
    exact Bool.false_ne_true ((isPrintable_of_isBlank hblank hspace).symm.trans hc)

/-! ## Quotations -/

/-- A hexadecimal digit is printable. -/
theorem isPrintable_hexDigit {value : Nat} (h : value < 16) :
    isPrintable (hexDigit value) = true := by
  have hdigits : ∀ value < 16, isPrintable (hexDigit value) = true := by decide
  exact hdigits value h

/-- Hexadecimal digits are printable. -/
theorem isPrintable_of_mem_hexDigits {width n : Nat} (h : c ∈ hexDigits width n) :
    isPrintable c = true := by
  induction width generalizing n with
  | zero => cases h
  | succ width ih =>
    rcases List.mem_append.mp h with h | h
    · exact ih h
    · rw [List.mem_singleton.mp h]
      exact isPrintable_hexDigit (Nat.mod_lt n (by decide))

/-- A code point is written with printable characters. -/
theorem isPrintable_of_mem_hexEscape {n : Nat} (h : c ∈ hexEscape n) : isPrintable c = true := by
  have hmark (mark : Char) (hmark : isPrintable mark = true) (width : Nat) :
      ∀ c ∈ '\\' :: mark :: hexDigits width n, isPrintable c = true :=
    List.forall_mem_cons.mpr
      ⟨rfl, List.forall_mem_cons.mpr ⟨hmark, fun _ => isPrintable_of_mem_hexDigits⟩⟩
  rw [hexEscape] at h
  split at h
  · exact hmark 'x' rfl 2 c h
  · split at h
    · exact hmark 'u' rfl 4 c h
    · exact hmark 'U' rfl 8 c h

/-- Inside a quotation every character is written with printable ones. -/
theorem isPrintable_of_mem_quotedChar {quote d : Char} (hquote : isPrintable quote = true)
    (h : d ∈ quotedChar quote c) : isPrintable d = true := by
  have hescape (mark : Char) (hmark : isPrintable mark = true) :
      d ∈ ['\\', mark] → isPrintable d = true := by
    intro hd
    rcases List.mem_cons.mp hd with rfl | hd
    · rfl
    · rw [List.mem_singleton.mp hd]
      exact hmark
  rw [quotedChar] at h
  split at h
  next hself =>
    rw [Bool.or_eq_true, beq_iff_eq, beq_iff_eq] at hself
    rcases hself with rfl | rfl
    · exact hescape _ hquote h
    · exact hescape _ rfl h
  next =>
    split at h
    next => exact hescape 'n' rfl h
    split at h
    next => exact hescape 'r' rfl h
    split at h
    next => exact hescape 't' rfl h
    split at h
    next hprintable =>
      rw [List.mem_singleton.mp h]
      exact hprintable
    next => exact isPrintable_of_mem_hexEscape h

/-- The quote is an apostrophe or a double quote. -/
theorem isPrintable_quoteFor (cs : List Char) : isPrintable (quoteFor cs) = true := by
  rw [quoteFor]
  split <;> rfl

/-- A quotation is printable whatever it quotes. -/
theorem every_quoted (text : String) : Every isPrintable (quoted text) := by
  have hquote := isPrintable_quoteFor text.toList
  rw [Every, quoted, String.toList_ofList, List.cons_append, List.forall_mem_cons,
    List.forall_mem_append]
  refine ⟨hquote, fun d hd => ?_, fun d hd => ?_⟩
  · obtain ⟨c, -, hd⟩ := List.mem_flatMap.mp hd
    exact isPrintable_of_mem_quotedChar hquote hd
  · rw [List.mem_singleton.mp hd]
    exact hquote

end

end Reckoner.Text

namespace Reckoner.Number

open Reckoner.Text

/-- What the written forms of finite numbers hold is printable. -/
theorem isPrintable_of_isPlain {c : Char} (h : isPlain c = true) : isPrintable c = true := by
  rcases isPlain_iff.mp h with h | rfl | rfl | rfl | rfl
  · exact isPrintable_of_ascii (by omega)
  all_goals rfl

/-- A written form is printable with a sign, too. -/
theorem every_signed {cs : List Char} (h : ∀ c ∈ cs, isPrintable c = true) (negative : Bool) :
    Every isPrintable (signed negative cs) := by
  rw [Every, signed, String.toList_ofList]
  cases negative with
  | false => exact h
  | true => exact List.forall_mem_cons.mpr ⟨rfl, h⟩

/-- The digits of a natural number are printable. -/
theorem isPrintable_of_mem_naturalText {n : Nat} {c : Char} (h : c ∈ naturalText n) :
    isPrintable c = true :=
  isPrintable_of_isPlain (isPlain_of_isDigit (isDigit_of_mem_naturalText h))

/-- A natural number is written with printable characters. -/
theorem every_natural (n : Nat) : Every isPrintable (natural n) := by
  rw [Every, natural, String.toList_ofList]
  exact fun _ => isPrintable_of_mem_naturalText

/-- So is every double in full form. -/
theorem every_full (x : Float) : Every isPrintable (full x) := by
  rw [full]
  split
  next => decide
  next => exact every_signed (List.all_eq_true.mp rfl) _
  next =>
    refine every_signed ?_ _
    rw [rankText]
    split
    next => exact List.all_eq_true.mp rfl
    next => exact fun c hc => isPrintable_of_isPlain ((text_spec _).1.plain c hc)

/-- So it is in brief form. -/
theorem every_brief (x : Float) : Every isPrintable (brief x) := by
  rw [brief]
  split
  next =>
    split
    next =>
      split
      next => exact every_signed (fun _ => isPrintable_of_mem_naturalText) _
      next => exact every_full x
    next => exact every_full x
  next => exact every_full x

end Reckoner.Number
