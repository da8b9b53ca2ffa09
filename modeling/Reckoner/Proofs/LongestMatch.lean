import Reckoner.Proofs.Lexemes

/-!
# The longest lexeme

The tokens of a text are the lexemes of its one cut from left to right into gaps and lexemes, where
each lexeme is the longest one, of any kind, that the characters from there on begin with. The first
character of a lexeme tells its kind, and the lexer takes no fewer characters behind it than any
lexeme in that place has.
-/

namespace Reckoner.Token

open Reckoner.Text

/-- A row of blanks, at least one. -/
def IsGap (cs : List Char) : Prop :=
  cs ≠ [] ∧ ∀ c ∈ cs, isBlank c

/-- The longest lexeme that some characters begin with, and its kind. -/
structure IsLongest (kind : Kind) (lexeme cs : List Char) : Prop where
  /-- It is a lexeme of the kind. -/
  isLexeme : IsLexeme kind lexeme
  /-- The characters begin with it. -/
  isPrefix : lexeme <+: cs
  /-- No lexeme of any kind that the characters begin with is longer. -/
  longest : ∀ other front, IsLexeme other front → front <+: cs → front.length ≤ lexeme.length

/-- How characters are cut from left to right, and the tokens that come out. -/
inductive Cuts : List Char → List Token → Prop where
  /-- Nothing is left to cut. -/
  | nil : Cuts [] []
  /-- A gap makes no token. -/
  | gap {gap cs : List Char} {tokens : List Token} (isGap : IsGap gap) (rest : Cuts cs tokens) :
      Cuts (gap ++ cs) tokens
  /-- The longest lexeme is a token. -/
  | lexeme {kind : Kind} {lexeme cs : List Char} {tokens : List Token}
      (isLongest : IsLongest kind lexeme (lexeme ++ cs)) (rest : Cuts cs tokens) :
      Cuts (lexeme ++ cs) (⟨kind, String.ofList lexeme⟩ :: tokens)

/-- A lexeme has a first character. -/
theorem IsLexeme.ne_nil {kind : Kind} {cs : List Char} (h : IsLexeme kind cs) : cs ≠ [] := by
  rintro rfl
  cases kind with
  | number =>
    obtain ⟨h, -⟩ | ⟨whole, fraction, h, -⟩ := h
    · exact h rfl
    · exact List.append_ne_nil_of_right_ne_nil whole (List.cons_ne_nil _ _) h.symm
  | identifier =>
    obtain ⟨first, rest, h, -⟩ := h
    cases h
  | operator => obtain ⟨c, d, h, -⟩ | ⟨c, h, -⟩ := h <;> cases h
  | opening => cases h
  | closing => cases h

/-- Characters of a kind in front are no more than the run of this kind. -/
theorem length_le_takeWhile {p : Char → Bool} {front cs : List Char} (h : front <+: cs)
    (hall : ∀ c ∈ front, p c) : front.length ≤ (cs.takeWhile p).length := by
  obtain ⟨rest, rfl⟩ := h
  rw [List.takeWhile_append_of_pos hall, List.length_append]
  exact Nat.le_add_right _ _

/-- Digits, a point and the digits behind it are one run. -/
theorem numberRun_point {whole : List Char} (h : ∀ c ∈ whole, isDigit c) (rest : List Char) :
    numberRun (whole ++ '.' :: rest) = whole.length + 1 + digitRun rest := by
  have hdrop : (whole ++ '.' :: rest).dropWhile isDigit = '.' :: rest := by
    rw [List.dropWhile_append_of_pos h]
    rfl
  have hrun : digitRun (whole ++ '.' :: rest) = whole.length := by
    rw [digitRun, List.takeWhile_append_of_pos h]
    simp [isDigit]
  rw [numberRun, hdrop, hrun]
  rfl

/-- The run of a number holds the digits in front. -/
theorem digitRun_le_numberRun (cs : List Char) : digitRun cs ≤ numberRun cs := by
  unfold numberRun
  split
  next => omega
  next => exact le_rfl

/-- Behind a digit a number is no longer than the run of one. -/
theorem length_le_numberRun {c : Char} (hc : isDigit c = true) {rest cs : List Char}
    (h : IsNumber (c :: rest)) (hrest : rest <+: cs) : rest.length ≤ numberRun cs := by
  obtain ⟨-, hall⟩ | ⟨whole, fraction, heq, hwhole, hfraction⟩ := h
  · have hdigits : rest.length ≤ digitRun cs :=
      length_le_takeWhile hrest fun d hd => hall d (List.mem_cons_of_mem c hd)
    exact hdigits.trans (digitRun_le_numberRun cs)
  · cases whole with
    | nil =>
      cases heq
      exact absurd hc (by decide)
    | cons first whole =>
      rw [List.cons_append] at heq
      obtain ⟨rfl, rfl⟩ := List.cons.inj heq
      obtain ⟨back, rfl⟩ := hrest
      have hall : ∀ d ∈ whole, isDigit d := fun d hd => hwhole d (List.mem_cons_of_mem c hd)
      have hdigits : fraction.length ≤ digitRun (fraction ++ back) :=
        length_le_takeWhile (List.prefix_append fraction back) hfraction
      rw [List.append_assoc, List.cons_append, numberRun_point hall, List.length_append,
        List.length_cons]
      omega

/-- Behind a point in front a number has digits only. -/
theorem IsNumber.isDigit_of_mem {rest : List Char} (h : IsNumber ('.' :: rest)) :
    ∀ c ∈ rest, isDigit c := by
  have hpoint : ¬ isDigit '.' = true := by decide
  obtain ⟨-, hall⟩ | ⟨whole, fraction, heq, hwhole, hfraction⟩ := h
  · exact absurd (hall '.' List.mem_cons_self) hpoint
  · cases whole with
    | nil =>
      cases heq
      exact hfraction
    | cons first whole =>
      cases heq
      exact absurd (hwhole '.' List.mem_cons_self) hpoint

/-- The first characters of the signs of two characters begin nothing else but signs. -/
theorem extent_doubleSign {c d : Char} (h : isDoubleSign c d = true) {cs : List Char}
    (hcs : cs.head? = some d) : extent c cs = (.operator, 1) := by
  have hplain : isDigit c = false ∧ (c == '.') = false ∧ isLetter c = false ∧ (c == '(') = false ∧
      (c == ')') = false := by
    have hsigns : ∀ sign ∈ ['=', '>', '<', '!', '&', '|', '*'], isDigit sign = false ∧
        (sign == '.') = false ∧ isLetter sign = false ∧ (sign == '(') = false ∧
        (sign == ')') = false := by
      simp [isDigit, isLetter]
    exact hsigns c (mem_of_isDoubleSign h).1
  obtain ⟨hdigit, hpoint, hletter, hopening, hclosing⟩ := hplain
  simp [extent, hdigit, hpoint, hletter, hopening, hclosing, hcs, h]

/-- The lexer takes a lexeme of the kind of any lexeme in its place, and takes no less. -/
theorem extent_of_isLexeme {kind : Kind} {c : Char} {rest cs : List Char}
    (h : IsLexeme kind (c :: rest)) (hrest : rest <+: cs) :
    (extent c cs).1 = kind ∧ rest.length ≤ (extent c cs).2 := by
  cases kind with
  | number =>
    have hnumber : IsNumber (c :: rest) := h
    rcases hnumber.mem List.mem_cons_self with hdigit | rfl
    · have hextent : extent c cs = (.number, numberRun cs) := by rw [extent, if_pos hdigit]
      rw [hextent]
      exact ⟨rfl, length_le_numberRun hdigit hnumber hrest⟩
    · have hextent : extent '.' cs = (.number, digitRun cs) := rfl
      rw [hextent]
      exact ⟨rfl, length_le_takeWhile hrest hnumber.isDigit_of_mem⟩
  | identifier =>
    obtain ⟨first, name, heq, hletter, hname⟩ := h
    obtain ⟨rfl, rfl⟩ := List.cons.inj heq
    rw [(extent_letter hletter cs).2]
    exact ⟨rfl, length_le_takeWhile hrest hname⟩
  | operator =>
    obtain ⟨first, d, heq, hdouble⟩ | ⟨first, heq, -, hdigit, hletter, hpoint, hopening, hclosing⟩ := h
    · obtain ⟨rfl, rfl⟩ := List.cons.inj heq
      obtain ⟨back, rfl⟩ := hrest
      rw [extent_doubleSign hdouble rfl]
      exact ⟨rfl, le_rfl⟩
    · obtain ⟨rfl, rfl⟩ := List.cons.inj heq
      refine ⟨?_, Nat.zero_le _⟩
      simp only [Bool.not_eq_true'] at hdigit hletter
      simp only [extent, hdigit, hletter, beq_iff_eq, hpoint, hopening, hclosing, if_false,
        Bool.false_eq_true]
      split <;> rfl
  | opening =>
    obtain ⟨rfl, rfl⟩ := List.cons.inj h
    exact ⟨rfl, Nat.zero_le _⟩
  | closing =>
    obtain ⟨rfl, rfl⟩ := List.cons.inj h
    exact ⟨rfl, Nat.zero_le _⟩

/-- The lexer takes the longest lexeme. -/
theorem isLongest_extent {c : Char} (hc : isBlank c = false) (cs : List Char) :
    IsLongest (extent c cs).1 (c :: cs.take (extent c cs).2) (c :: cs) where
  isLexeme := isLexeme_extent hc cs
  isPrefix := (List.prefix_cons_inj c).mpr (List.take_prefix _ cs)
  longest := by
    intro other front hlexeme hfront
    obtain rfl | ⟨rest, rfl, hrest⟩ := List.prefix_cons_iff.mp hfront
    · exact Nat.zero_le _
    · have hextent := (extent_of_isLexeme hlexeme hrest).2
      have hlength := hrest.length_le
      simp only [List.length_cons, List.length_take]
      omega

/-- The longest lexeme in a place and its kind are unique. -/
theorem IsLongest.unique {kind other : Kind} {lexeme front cs : List Char}
    (h : IsLongest kind lexeme cs) (hother : IsLongest other front cs) :
    kind = other ∧ lexeme = front := by
  have hlength : lexeme.length = front.length :=
    Nat.le_antisymm (hother.longest kind lexeme h.isLexeme h.isPrefix)
      (h.longest other front hother.isLexeme hother.isPrefix)
  obtain rfl : lexeme = front :=
    (List.prefix_of_prefix_length_le h.isPrefix hother.isPrefix hlength.le).eq_of_length hlength
  refine ⟨?_, rfl⟩
  cases lexeme with
  | nil => exact absurd rfl h.isLexeme.ne_nil
  | cons c rest =>
    exact (extent_of_isLexeme h.isLexeme List.prefix_rfl).1.symm.trans
      (extent_of_isLexeme hother.isLexeme List.prefix_rfl).1

/-- A gap is passed over. -/
theorem scan_append_of_forall {gap : List Char} (h : ∀ c ∈ gap, isBlank c) (cs : List Char) :
    scan (gap ++ cs) = scan cs := by
  induction gap with
  | nil => rfl
  | cons c gap ih =>
    rw [List.cons_append, scan_cons_of_isBlank (h c List.mem_cons_self)]
    exact ih fun d hd => h d (List.mem_cons_of_mem c hd)

/-- The tokens of a row of characters come out of a cut. -/
theorem cuts_scan (cs : List Char) : Cuts cs (scan cs) := by
  fun_induction scan cs with
  | case1 => exact .nil
  | case2 c cs hc ih =>
    have hgap : IsGap [c] := ⟨List.cons_ne_nil c [], by simpa using hc⟩
    exact .gap hgap ih
  | case3 c cs hc kind length he ih =>
    have hlongest := isLongest_extent (Bool.eq_false_iff.mpr hc) cs
    have hcs : c :: cs = (c :: cs.take length) ++ cs.drop length := by
      rw [List.cons_append, List.take_append_drop]
    rw [he, hcs] at hlongest
    rw [hcs]
    exact .lexeme hlongest ih

/-- Every cut gives the tokens of the characters. -/
theorem Cuts.scan_eq {cs : List Char} {tokens : List Token} (h : Cuts cs tokens) :
    scan cs = tokens := by
  induction h with
  | nil => exact scan_nil
  | gap isGap _ ih => rw [scan_append_of_forall isGap.2, ih]
  | @lexeme kind lexeme cs tokens isLongest _ ih =>
    cases lexeme with
    | nil => exact absurd rfl isLongest.isLexeme.ne_nil
    | cons c rest =>
      have hc : isBlank c = false := isBlank_of_mem_lexeme isLongest.isLexeme List.mem_cons_self
      have htaken := isLongest_extent hc (rest ++ cs)
      obtain ⟨hkind, hlexeme⟩ := htaken.unique isLongest
      have hdrop : (rest ++ cs).drop (extent c (rest ++ cs)).2 = cs := by
        have hsplit := List.take_append_drop (extent c (rest ++ cs)).2 (rest ++ cs)
        rw [List.tail_eq_of_cons_eq hlexeme] at hsplit
        exact List.append_cancel_left hsplit
      rw [List.cons_append, scan_cons_of_not_isBlank hc, hkind, hlexeme, hdrop, ih]

/-- The tokens of a row of characters are those of its cut. -/
theorem scan_eq_iff_cuts {cs : List Char} {tokens : List Token} :
    scan cs = tokens ↔ Cuts cs tokens := by
  constructor
  · rintro rfl
    exact cuts_scan cs
  · exact Cuts.scan_eq

/-- A text has the tokens of its cut into gaps and longest lexemes, and no other tokens come out of a
cut. Together they hold every character of the text but the blanks, in their order. -/
theorem ofText_eq_iff_cuts (text : String) :
    (∀ tokens, ofText text = tokens ↔ Cuts text.toList tokens) ∧
      (ofText text).flatMap (·.text.toList) = text.toList.filter (!isBlank ·) :=
  ⟨fun _ => scan_eq_iff_cuts, flatMap_scan text.toList⟩

/-- A number has one point only, and a row of stars is cut in pairs. -/
example : (ofText "1.2.3 ***x_1").map Token.text = ["1.2", ".3", "**", "*", "x_1"] := by
  decide +kernel

end Reckoner.Token
