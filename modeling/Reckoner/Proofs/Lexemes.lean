import Mathlib.Data.List.TakeWhile
import Reckoner.Token.Lexeme

/-!
# The tokens of a text are lexemes

Whatever the characters behind the first one are, the lexer takes as many of them as make a lexeme
of the kind it names. So every token of a text is a lexeme of its kind: its parentheses are the
parentheses, and no sign is the name of an operator in front of an operand. Together the tokens
hold every character of the text but the blanks, in their order. And a text that is a name is one
token.
-/

namespace Reckoner.Token

open Reckoner.Text

/-- Taking the characters of a run takes the run. -/
theorem take_length_takeWhile (p : Char → Bool) (cs : List Char) :
    cs.take (cs.takeWhile p).length = cs.takeWhile p :=
  (List.prefix_iff_eq_take.mp (List.takeWhile_prefix p)).symm

/-- The digits in front are digits. -/
theorem isDigit_of_mem_take {cs : List Char} {c : Char} (h : c ∈ cs.take (digitRun cs)) :
    isDigit c = true := by
  rw [digitRun, take_length_takeWhile] at h
  exact List.mem_takeWhile_imp h

/-- A digit begins a number. -/
theorem isNumber_of_digit {c : Char} (hc : isDigit c = true) (cs : List Char) :
    IsNumber (c :: cs.take (numberRun cs)) := by
  have hdigits : ∀ d ∈ c :: cs.takeWhile isDigit, isDigit d := by
    intro d hd
    rcases List.mem_cons.mp hd with rfl | hd
    · exact hc
    · exact List.mem_takeWhile_imp hd
  unfold numberRun
  split
  next rest hrest =>
    right
    refine ⟨c :: cs.takeWhile isDigit, rest.take (digitRun rest), ?_, hdigits, ?_⟩
    · have hcs : cs = cs.takeWhile isDigit ++ '.' :: rest := by
        rw [← hrest, List.takeWhile_append_dropWhile]
      have htake : cs.take (digitRun cs + 1 + digitRun rest) =
          cs.takeWhile isDigit ++ '.' :: rest.take (digitRun rest) :=
        calc cs.take (digitRun cs + 1 + digitRun rest)
            = (cs.takeWhile isDigit ++ '.' :: rest).take
                ((cs.takeWhile isDigit).length + (digitRun rest + 1)) := by
              rw [← hcs, digitRun, Nat.add_assoc, Nat.add_comm 1]
          _ = cs.takeWhile isDigit ++ '.' :: rest.take (digitRun rest) := by
              rw [List.take_length_add_append, List.take_succ_cons]
      rw [htake, List.cons_append]
    · exact fun d hd => isDigit_of_mem_take hd
  next =>
    left
    rw [digitRun, take_length_takeWhile]
    exact ⟨List.cons_ne_nil _ _, hdigits⟩

/-- The characters that the lexer takes are a lexeme of the kind that it names. -/
theorem isLexeme_extent {c : Char} (hc : isBlank c = false) (cs : List Char) :
    IsLexeme (extent c cs).1 (c :: cs.take (extent c cs).2) := by
  unfold extent
  split
  next hdigit => exact isNumber_of_digit hdigit cs
  next hdigit =>
    split
    next hpoint =>
      right
      refine ⟨[], cs.take (digitRun cs), ?_, nofun, fun d hd => isDigit_of_mem_take hd⟩
      rw [eq_of_beq hpoint, List.nil_append]
    next hpoint =>
      split
      next hletter =>
        refine ⟨c, _, rfl, hletter, fun d hd => ?_⟩
        rw [take_length_takeWhile] at hd
        exact List.mem_takeWhile_imp hd
      next hletter =>
        split
        next hopening => exact congrArg (List.cons · []) (eq_of_beq hopening)
        next hopening =>
          split
          next hclosing => exact congrArg (List.cons · []) (eq_of_beq hclosing)
          next hclosing =>
            split
            next hdouble =>
              left
              cases cs with
              | nil => cases hdouble
              | cons d rest => exact ⟨c, d, rfl, hdouble⟩
            next =>
              right
              simp only [beq_iff_eq] at hpoint hopening hclosing
              simp only [Bool.not_eq_true] at hdigit hletter
              exact ⟨c, rfl, by simp [hc], by simp [hdigit], by simp [hletter], hpoint, hopening,
                hclosing⟩

/-- Every token of a row of characters is a lexeme of its kind. -/
theorem isValid_of_mem_scan {token : Token} {cs : List Char} (h : token ∈ scan cs) :
    IsValid token := by
  fun_induction scan cs with
  | case1 => cases h
  | case2 c cs hc ih => exact ih h
  | case3 c cs hc kind length he ih =>
    rcases List.mem_cons.mp h with rfl | h
    · have hlexeme := isLexeme_extent (Bool.eq_false_iff.mpr hc) cs
      rw [he] at hlexeme
      rw [IsValid, String.toList_ofList]
      exact hlexeme
    · exact ih h

/-- Every token of a text is a lexeme of its kind. -/
theorem isValid_of_mem_ofText {token : Token} {text : String} (h : token ∈ ofText text) :
    IsValid token :=
  isValid_of_mem_scan h

/-- The only valid opening token is the opening parenthesis. -/
theorem IsValid.eq_opening {token : Token} (h : IsValid token) (hk : token.kind = .opening) :
    token = .opening := by
  obtain ⟨kind, text⟩ := token
  cases hk
  exact congrArg (Token.mk _) (String.toList_inj.mp h)

/-- The only valid closing token is the closing parenthesis. -/
theorem IsValid.eq_closing {token : Token} (h : IsValid token) (hk : token.kind = .closing) :
    token = .closing := by
  obtain ⟨kind, text⟩ := token
  cases hk
  exact congrArg (Token.mk _) (String.toList_inj.mp h)

/-- A valid sign has one character or two. -/
theorem IsValid.length_le {token : Token} (h : IsValid token) (hk : token.kind = .operator) :
    token.text.toList.length ≤ 2 := by
  obtain ⟨kind, text⟩ := token
  cases hk
  rcases h with ⟨c, d, h, -⟩ | ⟨c, h, -⟩ <;> simp [h]

/-- The letters by their codes. -/
theorem isLetter_iff {c : Char} :
    isLetter c = true ↔ 97 ≤ c.toNat ∧ c.toNat ≤ 122 ∨ 65 ≤ c.toNat ∧ c.toNat ≤ 90 := by
  have hle : ∀ a b : Char, a ≤ b ↔ a.toNat ≤ b.toNat := fun a b => Iff.rfl
  simp only [isLetter, Bool.or_eq_true, Bool.and_eq_true, decide_eq_true_eq, hle]
  rfl

/-- The digits by their codes. -/
theorem isDigit_iff {c : Char} : isDigit c = true ↔ 48 ≤ c.toNat ∧ c.toNat ≤ 57 := by
  have hle : ∀ a b : Char, a ≤ b ↔ a.toNat ≤ b.toNat := fun a b => Iff.rfl
  rw [isDigit, Bool.and_eq_true, decide_eq_true_eq, decide_eq_true_eq, hle, hle]
  rfl

/-- The characters that ASCII shows are no blanks. -/
theorem isBlank_of_shown {c : Char} (h : 33 ≤ c.toNat ∧ c.toNat ≤ 126) : isBlank c = false := by
  simp only [isBlank, Bool.or_eq_false_iff, Bool.and_eq_false_iff, decide_eq_false_iff_not,
    beq_eq_false_iff_ne]
  omega

/-- A letter is no blank, no digit and no point, and so begins a name. -/
theorem extent_letter {c : Char} (h : isLetter c = true) (cs : List Char) :
    isBlank c = false ∧ extent c cs = (.identifier, (cs.takeWhile isNameChar).length) := by
  have hcode := isLetter_iff.mp h
  have hdigit : isDigit c = false := by
    rw [Bool.eq_false_iff, Ne, isDigit_iff]
    omega
  have hpoint : (c == '.') = false := by
    rw [beq_eq_false_iff_ne]
    rintro rfl
    exact absurd h (by decide)
  refine ⟨isBlank_of_shown (by omega), ?_⟩
  rw [extent, hdigit, hpoint, h]
  rfl

/-- The characters of a number are digits and the point. -/
theorem IsNumber.mem {cs : List Char} (h : IsNumber cs) {c : Char} (hc : c ∈ cs) :
    isDigit c = true ∨ c = '.' := by
  rcases h with ⟨-, hall⟩ | ⟨whole, fraction, rfl, hwhole, hfraction⟩
  · exact .inl (hall c hc)
  · rcases List.mem_append.mp hc with hc | hc
    · exact .inl (hwhole c hc)
    · rcases List.mem_cons.mp hc with rfl | hc
      · exact .inr rfl
      · exact .inl (hfraction c hc)

/-- The characters of a name are those that may stand in one. -/
theorem IsName.mem {cs : List Char} (h : IsName cs) {c : Char} (hc : c ∈ cs) :
    isNameChar c = true := by
  obtain ⟨first, rest, rfl, hfirst, hrest⟩ := h
  rcases List.mem_cons.mp hc with rfl | hc
  · rw [isNameChar, hfirst]
    rfl
  · exact hrest c hc

/-- The characters of a sign of two characters. -/
theorem mem_of_isDoubleSign {c d : Char} (h : isDoubleSign c d = true) :
    c ∈ ['=', '>', '<', '!', '&', '|', '*'] ∧ d ∈ ['=', '>', '<', '!', '&', '|', '*'] := by
  simp only [isDoubleSign, Bool.or_eq_true, Bool.and_eq_true, beq_iff_eq] at h
  rcases h with ⟨rfl, ((rfl | rfl) | rfl) | rfl⟩ | ⟨rfl, (rfl | rfl) | rfl⟩ <;> decide

/-- A lexeme holds no blanks. -/
theorem isBlank_of_mem_lexeme {kind : Kind} {cs : List Char} (h : IsLexeme kind cs) {c : Char}
    (hc : c ∈ cs) : isBlank c = false := by
  cases kind with
  | number =>
    rcases h.mem hc with hdigit | rfl
    · have hcode := isDigit_iff.mp hdigit
      exact isBlank_of_shown (by omega)
    · decide
  | identifier =>
    have hname := IsName.mem h hc
    simp only [isNameChar, Bool.or_eq_true, isLetter_iff, isDigit_iff, beq_iff_eq] at hname
    rcases hname with (hletter | hdigit) | rfl
    · exact isBlank_of_shown (by omega)
    · exact isBlank_of_shown (by omega)
    · decide
  | operator =>
    rcases h with ⟨first, second, rfl, hdouble⟩ | ⟨sign, rfl, hblank, -⟩
    · have hsigns : ∀ sign ∈ ['=', '>', '<', '!', '&', '|', '*'], isBlank sign = false := by
        simp [isBlank]
      obtain ⟨hfirst, hsecond⟩ := mem_of_isDoubleSign hdouble
      simp only [List.mem_cons, List.not_mem_nil, or_false] at hc
      rcases hc with rfl | rfl
      · exact hsigns _ hfirst
      · exact hsigns _ hsecond
    · rw [List.mem_singleton.mp hc]
      simpa using hblank
  | opening =>
    cases h
    rw [List.mem_singleton.mp hc]
    decide
  | closing =>
    cases h
    rw [List.mem_singleton.mp hc]
    decide

/-- The tokens of a row of characters hold all of them but the blanks, in their order. -/
theorem flatMap_scan (cs : List Char) :
    (scan cs).flatMap (·.text.toList) = cs.filter (!isBlank ·) := by
  fun_induction scan cs with
  | case1 => rfl
  | case2 c cs hc ih => rw [List.filter_cons_of_neg (by simp [hc]), ih]
  | case3 c cs hc kind length he ih =>
    have hlexeme := isLexeme_extent (Bool.eq_false_iff.mpr hc) cs
    rw [he] at hlexeme
    have hkept : (c :: cs.take length).filter (!isBlank ·) = c :: cs.take length := by
      rw [List.filter_eq_self]
      intro d hd
      rw [isBlank_of_mem_lexeme hlexeme hd]
      rfl
    calc (⟨kind, String.ofList (c :: cs.take length)⟩ :: scan (cs.drop length)).flatMap
          (·.text.toList)
        = (c :: cs.take length) ++ (cs.drop length).filter (!isBlank ·) := by
          rw [List.flatMap_cons, String.toList_ofList, ih]
      _ = ((c :: cs.take length) ++ cs.drop length).filter (!isBlank ·) := by
          rw [List.filter_append, hkept]
      _ = (c :: cs).filter (!isBlank ·) := by rw [List.cons_append, List.take_append_drop]

/-- A name is one token, the name. -/
theorem ofText_of_isName {word : String} (h : IsName word.toList) :
    ofText word = [.identifier word] := by
  obtain ⟨first, rest, hword, hfirst, hrest⟩ := h
  obtain ⟨hblank, hextent⟩ := extent_letter hfirst rest
  have hall : rest.takeWhile isNameChar = rest := by
    rw [List.takeWhile_eq_self_iff]
    exact hrest
  rw [ofText, hword, scan_cons_of_not_isBlank hblank, hextent, hall, List.take_length,
    List.drop_length, scan_nil, ← hword, String.ofList_toList]
  rfl

end Reckoner.Token
