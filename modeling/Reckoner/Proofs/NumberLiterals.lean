import Reckoner.Proofs.Parentheses
import Reckoner.Proofs.ReadBack
import Reckoner.Proofs.Substitution
import Reckoner.Proofs.TokenUse

/-!
# Number literals

What the lexer takes for a number is read as one, with the single exception of a point without
digits. The value is never negative and never undefined: it is the double nearest to the decimal
that is written, or infinity if that is too large. So the lone point is the only literal that an
evaluation rejects, and it does so only where the point is a token of the text.
-/

namespace Reckoner.Number

open Reckoner.Text

/-- A number lexeme has characters. -/
theorem ne_nil_of_isNumber {cs : List Char} (h : Token.IsNumber cs) : cs ≠ [] := by
  rcases h with ⟨hsome, -⟩ | ⟨whole, fraction, rfl, -⟩
  · exact hsome
  · exact List.append_ne_nil_of_right_ne_nil _ (List.cons_ne_nil _ _)

/-- A number lexeme with a digit writes a decimal. -/
theorem exists_decimalOf?_of_isNumber {cs : List Char} (h : Token.IsNumber cs)
    (hpoint : cs ≠ ['.']) : ∃ d, decimalOf? cs = some d := by
  rcases h with ⟨hsome, hall⟩ | ⟨whole, fraction, rfl, hwhole, hfraction⟩
  · have hsplit : splitPoint (cs ++ []) = (cs, [], []) := splitPoint_digits hall nofun
    rw [List.append_nil] at hsplit
    exact ⟨_, decimalOf?_of_splitPoint hsplit (List.append_ne_nil_of_left_ne_nil hsome _)⟩
  · have hsplit : splitPoint (whole ++ '.' :: (fraction ++ [])) = (whole, fraction, []) :=
      splitPoint_pointed hwhole hfraction nofun
    rw [List.append_nil] at hsplit
    have hdigits : whole ++ fraction ≠ [] := by
      intro hnone
      obtain ⟨rfl, rfl⟩ := List.append_eq_nil_iff.mp hnone
      exact hpoint rfl
    exact ⟨_, decimalOf?_of_splitPoint hsplit hdigits⟩

/-- A number lexeme with a digit is read as the double nearest to a decimal, without a sign. -/
theorem exists_read?_of_isNumber {cs : List Char} (h : Token.IsNumber cs) (hpoint : cs ≠ ['.']) :
    ∃ d : Decimal, read? (String.ofList cs) = some (ofRank false d.rank) := by
  obtain ⟨d, hd⟩ := exists_decimalOf?_of_isNumber h hpoint
  obtain ⟨c, rest, rfl⟩ := List.exists_cons_of_ne_nil (ne_nil_of_isNumber h)
  have hplain : ∀ c ∈ rest, isPlain c = true := by
    intro c hc
    rcases h.mem (List.mem_cons_of_mem _ hc) with hdigit | rfl
    · exact isPlain_of_isDigit hdigit
    · rfl
  have hread := read?_signed (h.mem List.mem_cons_self) hplain false
  rw [if_neg Bool.false_ne_true, hd, Option.map_some] at hread
  exact ⟨d, hread⟩

/-- The doubles without a sign up to infinity are numbers and not negative. -/
theorem nonneg_ofRank {rank : Nat} (h : rank ≤ infinityRank) :
    (ofRank false rank).isNaN = false ∧ isNegative (ofRank false rank) = false ∧
      0 ≤ ofRank false rank := by
  refine ⟨?_, isNegative_ofRank false h, ?_⟩
  · rw [← Bool.not_eq_true, isNaN_iff, rankOf_ofRank false h]
    exact Nat.not_lt.mpr h
  · rw [← ofRank_zero.1, ofRank_le_ofRank (Nat.zero_le _) h]
    exact Nat.zero_le rank

end Reckoner.Number

namespace Reckoner

open Number

/-- A number token of a text is read unless it is the lone point, as a double that is a number and
not negative. -/
theorem read?_of_mem_ofText {text : String} {token : Token} (ht : token ∈ Token.ofText text)
    (hk : token.kind = .number) :
    token.text = "." ∧ read? token.text = none ∨
      token.text ≠ "." ∧ ∃ value, read? token.text = some value ∧ value.isNaN = false ∧
        isNegative value = false ∧ 0 ≤ value := by
  by_cases hpoint : token.text = "."
  · exact .inl ⟨hpoint, hpoint ▸ read?_point⟩
  · have hvalid := Token.isValid_of_mem_ofText ht
    rw [Token.IsValid, hk] at hvalid
    have hother : token.text.toList ≠ ['.'] := fun h => hpoint (String.toList_inj.mp h)
    obtain ⟨d, hd⟩ := exists_read?_of_isNumber hvalid hother
    rw [String.ofList_toList] at hd
    exact .inr ⟨hpoint, _, hd, nonneg_ofRank (Decimal.rank_le d)⟩

/-- Only a number token with that text, which is not read, is an invalid number. -/
theorem mem_of_invalidNumber {bindings : Bindings} {rpn : List Token} {literal : String}
    (h : evaluate bindings rpn = .error (.invalidNumber literal)) :
    .number literal ∈ rpn ∧ read? literal = none := by
  cases fails_of_evaluate h with
  | @meaningless token _ mem cause =>
    cases cause with
    | number kind unread =>
      have htoken : token = .number token.text := congrArg (Token.mk · token.text) kind
      exact ⟨htoken ▸ mem, unread⟩
  | execution mem meaning cause =>
    rcases Instruction.execute_eq_error cause with ⟨label, hfailure, -⟩ | hnumeric
    · cases hfailure
    · cases hnumeric

/-- A text starts as its front does. -/
theorem head?_toList_append {front : String} {c : Char} (h : front.toList.head? = some c)
    (back : String) : (front ++ back).toList.head? = some c := by
  rw [String.toList_append, List.head?_append, h]
  rfl

/-- The message of an invalid number is the only one that starts as it does. -/
theorem Failure.exists_literal_of_message {failure : Failure}
    (h : "Invalid number literal".toList <+: failure.message.toList) :
    ∃ literal, failure = .invalidNumber literal := by
  have hother {c : Char} (hc : c ∈ ['M', 'D', 'U', 'N'])
      (hfirst : failure.message.toList.head? = some c) :
      ∃ literal, failure = .invalidNumber literal := by
    obtain ⟨rest, hrest⟩ := h
    rw [← hrest, List.head?_append, show "Invalid number literal".toList.head? = some 'I' by simp,
      Option.some_or, Option.some_inj] at hfirst
    exact absurd (hfirst ▸ hc) (by decide)
  cases failure with
  | invalidNumber literal => exact ⟨literal, rfl⟩
  | unexpectedClosing =>
    refine hother (c := 'M') (by decide) ?_
    change "Mismatched parentheses: unexpected ')'".toList.head? = some 'M'
    simp
  | unclosedOpening =>
    refine hother (c := 'M') (by decide) ?_
    change "Mismatched parentheses: unclosed '('".toList.head? = some 'M'
    simp
  | divisionByZero =>
    refine hother (c := 'D') (by decide) ?_
    change "Division by zero".toList.head? = some 'D'
    simp
  | moduloByZero =>
    refine hother (c := 'M') (by decide) ?_
    change "Modulo by zero".toList.head? = some 'M'
    simp
  | unknownIdentifier name =>
    exact hother (c := 'U') (by decide) (head?_toList_append (by simp) _)
  | unknownOperator symbol =>
    exact hother (c := 'U') (by decide) (head?_toList_append (by simp) _)
  | unexpectedToken text =>
    exact hother (c := 'U') (by decide) (head?_toList_append (by simp) _)
  | missingOperands label needed held =>
    refine hother (c := 'N') (by decide) ?_
    exact head?_toList_append (head?_toList_append (by simp) _) _
  | leftOver count =>
    exact hother (c := 'M') (by decide) (head?_toList_append (head?_toList_append (by simp) _) _)
  | mathDomain label operands =>
    refine hother (c := 'M') (by decide) ?_
    exact head?_toList_append (head?_toList_append (by simp) _) _

namespace Calculator

/-- Every number token of a text is read as a number that is not negative, unless it is the lone
point. So of all failures that complain of a literal an evaluation of the text has at most the one
that complains of the point, and only if the point is among the tokens. -/
theorem reads_all_but_point (text : String) :
    (∀ token ∈ Token.ofText text, token.kind = .number → ∀ bindings,
      ((∃ instruction, Instruction.ofToken bindings token = .ok instruction) ↔ token.text ≠ ".") ∧
      ∀ instruction, Instruction.ofToken bindings token = .ok instruction →
        ∃ value, instruction = .literal value ∧ value.isNaN = false ∧ isNegative value = false ∧
          0 ≤ value) ∧
    ∀ (calculator : Calculator) failure, calculator.evaluate text = .error failure →
      "Invalid number literal".toList <+: failure.message.toList →
        failure.message = "Invalid number literal: '.'" ∧ .number "." ∈ Token.ofText text := by
  constructor
  · intro token ht hk bindings
    rcases read?_of_mem_ofText ht hk with ⟨hpoint, hnone⟩ | ⟨hpoint, value, hvalue, hsound⟩
    · have hfails : Instruction.ofToken bindings token = .error (.invalidNumber token.text) :=
        ofToken_eq_error_iff.mpr (.number hk hnone)
      simp [hfails, hpoint]
    · have hreads : Instruction.ofToken bindings token = .ok (.literal value) :=
        ofToken_eq_ok_iff.mpr (.number hk hvalue)
      refine ⟨⟨fun _ => hpoint, fun _ => ⟨_, hreads⟩⟩, fun instruction hinstruction => ?_⟩
      rw [hreads] at hinstruction
      cases hinstruction
      exact ⟨value, rfl, hsound⟩
  · intro calculator failure hfails hmessage
    obtain ⟨literal, rfl⟩ := Failure.exists_literal_of_message hmessage
    obtain ⟨rpn, harrange, hvalue⟩ := exists_arrange_of_evaluate_eq_error hfails nofun
    obtain ⟨hmem, hnone⟩ := mem_of_invalidNumber hvalue
    have hexpression : .number literal ∈ expressionTokens text :=
      Rpn.mem_of_mem_readings (.inl rfl) ((Rpn.arrange_perm harrange).mem_iff.mp hmem)
    have hwritten := mem_ofText_of_mem_expressionTokens hexpression
    rcases read?_of_mem_ofText hwritten rfl with ⟨hpoint, -⟩ | ⟨-, value, hread, -⟩
    · obtain rfl : literal = "." := hpoint
      exact ⟨by decide, hwritten⟩
    · rw [show read? literal = some value from hread] at hnone
      cases hnone

/-- Of four points in a row the first one ends a number and the last one begins one. The two between
them stand alone. -/
theorem reads_all_but_point_row :
    Token.ofText "08....5" = [.number "08.", .number ".", .number ".", .number ".5"] ∧
    (∃ instruction, Instruction.ofToken Bindings.empty (.number "08.") = .ok instruction) ∧
    ¬ (∃ instruction, Instruction.ofToken Bindings.empty (.number ".") = .ok instruction) ∧
    ∃ failure, fresh.evaluate "08....5" = .error failure ∧
      failure.message = "Invalid number literal: '.'" := by
  have htokens : Token.ofText "08....5" =
      [.number "08.", .number ".", .number ".", .number ".5"] := by decide +kernel
  obtain ⟨hreads, hfails⟩ := reads_all_but_point "08....5"
  rw [htokens] at hreads hfails
  have hfailure : fresh.evaluate "08....5" = .error (.invalidNumber ".") := by
    with_unfolding_all rfl
  refine ⟨htokens, ?_, ?_, _, hfailure, (hfails _ _ hfailure (by decide +kernel)).1⟩
  · exact (hreads (.number "08.") (by decide) rfl Bindings.empty).1.mpr (by decide)
  · exact fun h => (hreads (.number ".") (by decide) rfl Bindings.empty).1.mp h rfl

end Calculator

end Reckoner
