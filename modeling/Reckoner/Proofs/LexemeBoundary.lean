import Reckoner.Proofs.LongestMatch
import Reckoner.Proofs.Parentheses

/-!
# Where lexemes end

No lexeme goes on over a blank or a parenthesis. So the longest lexeme in front of one is the same
whatever comes behind it, and a text that is put together at such a place has the tokens of its
parts. Tokens that are written down with gaps between them are read as the same tokens again.
-/

namespace Reckoner.Token

open Reckoner.Text Reckoner.Rpn

/-- Whether a character ends every lexeme in front of it: the blanks and the parentheses. -/
def isBoundary (c : Char) : Bool :=
  isBlank c || isParenthesis c

/-- The texts of tokens in a row, the first two with the first gap between them, and so on. -/
def spaced (gap : Nat → String) : List Token → String
  | [] => ""
  | [token] => token.text
  | token :: next :: tokens =>
    token.text ++ gap 0 ++ spaced (fun i => gap (i + 1)) (next :: tokens)

section

variable {kind : Kind} {lexeme cs back : List Char} {tokens more : List Token} {d : Char}

/-- Behind its first character no lexeme has a blank or a parenthesis. -/
theorem IsLexeme.isBoundary_eq_false {c : Char} {front : List Char}
    (h : IsLexeme kind (c :: front ++ d :: back)) : isBoundary d = false := by
  have hmem : d ∈ c :: front ++ d :: back :=
    List.mem_append_right _ List.mem_cons_self
  have hparenthesis : isParenthesis d = false := by
    have hvalid : IsValid ⟨kind, String.ofList (c :: front ++ d :: back)⟩ := by
      rwa [IsValid, String.toList_ofList]
    have hfilter := hvalid.filter_isParenthesis
    rw [String.toList_ofList] at hfilter
    cases kind with
    | opening => cases front <;> cases h
    | closing => cases front <;> cases h
    | _ => simpa using List.filter_eq_nil_iff.mp hfilter d hmem
  rw [isBoundary, isBlank_of_mem_lexeme h hmem, hparenthesis]
  rfl

/-- The longest lexeme stays the longest if a boundary comes behind the characters. -/
theorem IsLongest.append (h : IsLongest kind lexeme cs) (hd : isBoundary d = true)
    (back : List Char) : IsLongest kind lexeme (cs ++ d :: back) where
  isLexeme := h.isLexeme
  isPrefix := h.isPrefix.trans (List.prefix_append cs (d :: back))
  longest := by
    intro other front hlexeme hfront
    by_cases hlength : front.length ≤ cs.length
    · exact h.longest other front hlexeme
        (List.prefix_of_prefix_length_le hfront (List.prefix_append cs (d :: back)) hlength)
    · -- A longer lexeme would hold the boundary, and not as its first character.
      exfalso
      obtain ⟨rest, rfl⟩ := List.prefix_of_prefix_length_le (List.prefix_append cs (d :: back))
        hfront (Nat.le_of_not_le hlength)
      obtain ⟨c, first, rfl⟩ := List.exists_cons_of_ne_nil (h.isPrefix.ne_nil h.isLexeme.ne_nil)
      obtain rfl | ⟨rest, rfl, -⟩ :=
        List.prefix_cons_iff.mp ((List.prefix_append_right_inj _).mp hfront)
      · exact hlength (by rw [List.append_nil])
      · rw [hlexeme.isBoundary_eq_false] at hd
        cases hd

/-- Characters behind a boundary are cut as they are without those in front of it. -/
theorem Cuts.append (h : Cuts cs tokens) (hd : isBoundary d = true)
    (hback : Cuts (d :: back) more) : Cuts (cs ++ d :: back) (tokens ++ more) := by
  induction h with
  | nil => exact hback
  | gap isGap _ ih =>
    rw [List.append_assoc]
    exact .gap isGap ih
  | @lexeme kind lexeme cs tokens isLongest _ ih =>
    have hlongest := isLongest.append hd back
    rw [List.append_assoc] at hlongest ⊢
    exact .lexeme hlongest ih

/-- In front of a boundary a row of characters may be divided. -/
theorem scan_append (cs : List Char) (hd : isBoundary d = true) (back : List Char) :
    scan (cs ++ d :: back) = scan cs ++ scan (d :: back) :=
  ((cuts_scan cs).append hd (cuts_scan (d :: back))).scan_eq

/-- Across a gap a row of characters may be divided. -/
theorem scan_append_gap (cs : List Char) {gap : List Char} (h : IsGap gap) (back : List Char) :
    scan (cs ++ (gap ++ back)) = scan cs ++ scan back := by
  obtain ⟨hne, hblank⟩ := h
  obtain ⟨d, rest, rfl⟩ := List.exists_cons_of_ne_nil hne
  have hd : isBoundary d = true := by rw [isBoundary, hblank d List.mem_cons_self, Bool.true_or]
  rw [List.cons_append, scan_append cs hd, ← List.cons_append, scan_append_of_forall hblank]

/-- A space divides it, too. -/
theorem scan_append_space (cs back : List Char) :
    scan (cs ++ ' ' :: back) = scan cs ++ scan back := by
  have hspace : IsGap [' '] := by simp [IsGap, Text.isBlank]
  exact scan_append_gap cs hspace back

/-- A lexeme is its own token. -/
theorem scan_of_isValid {token : Token} (h : token.IsValid) : scan token.text.toList = [token] := by
  have hlongest : IsLongest token.kind token.text.toList (token.text.toList ++ []) :=
    ⟨h, List.prefix_append _ _, fun _ _ _ hfront => by simpa using hfront.length_le⟩
  have hcut := (Cuts.lexeme hlongest .nil).scan_eq
  rwa [List.append_nil, String.ofList_toList] at hcut

/-- Parentheses divide a row of characters. -/
theorem scan_append_group (cs inside : List Char) :
    scan (cs ++ '(' :: (inside ++ [')'])) =
      scan cs ++ .opening :: (scan inside ++ [.closing]) := by
  have hopening : scan ('(' :: (inside ++ [')'])) = .opening :: scan (inside ++ [')']) :=
    scan_cons_of_not_isBlank rfl
  have hclosing : scan [')'] = [.closing] := @scan_of_isValid .closing rfl
  rw [scan_append cs rfl, hopening, scan_append inside rfl, hclosing]

end

/-- Tokens that are written down with gaps between them are read again. -/
theorem ofText_spaced {tokens : List Token} (hvalid : ∀ token ∈ tokens, token.IsValid)
    {gap : Nat → String} (hgap : ∀ i, IsGap (gap i).toList) :
    ofText (spaced gap tokens) = tokens := by
  fun_induction spaced gap tokens with
  | case1 => exact scan_nil
  | case2 gap token => exact scan_of_isValid (hvalid token List.mem_cons_self)
  | case3 gap token next tokens ih =>
    obtain ⟨htoken, hrest⟩ := List.forall_mem_cons.mp hvalid
    rw [ofText, String.toList_append, String.toList_append, List.append_assoc,
      scan_append_gap _ (hgap 0), scan_of_isValid htoken, List.singleton_append]
    exact congrArg (token :: ·) (ih hrest fun i => hgap (i + 1))

/-- Tokens with a space between neighbours are spaced by it. -/
theorem spaced_space (tokens : List Token) : spaced (fun _ => " ") tokens = joinTexts tokens := by
  induction tokens with
  | nil => rfl
  | cons token tokens ih =>
    cases tokens with
    | nil => exact String.intercalate_singleton.symm
    | cons next tokens =>
      rw [spaced, ih]
      exact String.intercalate_cons_cons.symm

/-- Valid tokens that are written down with gaps between them are read again, and so are the tokens
of a text, which are valid. Texts may be divided across gaps and at parentheses. -/
theorem reads_spaced :
    (∀ tokens gap, (∀ token ∈ tokens, IsValid token) → (∀ i, IsGap (gap i).toList) →
      ofText (spaced gap tokens) = tokens) ∧
    (∀ text, (∀ token ∈ ofText text, IsValid token) ∧
      ofText (joinTexts (ofText text)) = ofText text) ∧
    (∀ a gap b : String, IsGap gap.toList → ofText (a ++ gap ++ b) = ofText a ++ ofText b) ∧
    ∀ a b : String, ofText (a ++ "(" ++ b ++ ")") =
      ofText a ++ [.opening] ++ ofText b ++ [.closing] := by
  refine ⟨fun tokens gap hvalid => ofText_spaced hvalid, fun text => ?_, fun a gap b hgap => ?_,
    fun a b => ?_⟩
  · have hvalid : ∀ token ∈ ofText text, IsValid token := fun _ => isValid_of_mem_ofText
    have hspace : IsGap " ".toList := by simp [IsGap, isBlank]
    refine ⟨hvalid, ?_⟩
    rw [← spaced_space]
    exact ofText_spaced hvalid fun _ => hspace
  · rw [ofText, String.toList_append, String.toList_append, List.append_assoc,
      scan_append_gap _ hgap]
    rfl
  · have htext : (a ++ "(" ++ b ++ ")").toList = a.toList ++ '(' :: (b.toList ++ [')']) := by
      simp
    rw [ofText, htext, scan_append_group]
    simp [ofText]

/-- A power and a lone point, with gaps of other blanks than the space, and two numbers that only a
gap divides. -/
theorem reads_spaced_power :
    ofText (spaced (fun _ => "\t\n") [.identifier "x", .operator "**", .number "."]) =
      [.identifier "x", .operator "**", .number "."] ∧
    ofText ("1." ++ " " ++ "5") = ofText "1." ++ ofText "5" := by
  obtain ⟨hspaced, -, hgap, -⟩ := reads_spaced
  refine ⟨hspaced _ _ ?_ fun _ => by simp [IsGap, isBlank], hgap _ _ _ (by simp [IsGap, isBlank])⟩
  simp only [List.forall_mem_cons]
  refine ⟨⟨'x', [], rfl, rfl, List.forall_mem_nil _⟩, .inl ⟨'*', '*', rfl, rfl⟩,
    .inr ⟨[], [], rfl, List.forall_mem_nil _, List.forall_mem_nil _⟩, List.forall_mem_nil _⟩

end Reckoner.Token
