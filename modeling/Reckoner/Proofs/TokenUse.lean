import Reckoner.Proofs.CalculatorRun

/-!
# Every token counts

No token of an expression that has a value is passed over. Its signs are those of operators, so
that an unknown character, or a sign of assignment anywhere but behind the name in front, always
makes it fail; its numbers are numbers and its names are known. And its operands are one more than
its operators between operands, as they stand in the text.
-/

namespace Reckoner

open Rpn

/-- The signs that operators are written with. -/
def knownSigns : List String :=
  ["!", "**", "^", "*", "/", "%", "+", "-", ">", "<", ">=", "<=", "==", "!=", "&&", "||"]

/-- The characters that stand in lexemes beside letters, digits and underscores. -/
def knownMarks : List Char :=
  ['.', '(', ')', '!', '*', '^', '/', '%', '+', '-', '>', '<', '=', '&', '|']

/-- Whether a token puts down a value: a number, and the name of a variable or a constant. -/
def isOperand (bindings : Bindings) (token : Token) : Bool :=
  token.kind == .number || token.kind == .identifier && hasValue bindings token.text

/-- Whether a sign belongs to the operand behind it. -/
def isPrefixed (previous : Option Token) (token : Token) : Bool :=
  isFrontPosition previous && (token.text == "-" || token.text == "+")

/-- Whether a token is an operator between two operands. -/
def joins (previous : Option Token) (token : Token) : Bool :=
  token.kind == .operator && token.text != "!" && !isPrefixed previous token

/-- How many operators between two operands a row of tokens has. -/
def joinCount : Option Token → List Token → Nat
  | _, [] => 0
  | previous, token :: tokens =>
    (if joins previous token then 1 else 0) + joinCount (some token) tokens

variable {bindings : Bindings} {previous : Option Token} {token : Token}

/-- A sign that belongs to no operand stands for itself. -/
theorem readOperator_of_not_prefixed (h : isPrefixed previous token = false) :
    readOperator previous token = token := by
  cases hp : isFrontPosition previous with
  | false => exact readOperator_behind hp token
  | true =>
    obtain ⟨hminus, hplus⟩ : token.text ≠ "-" ∧ token.text ≠ "+" := by
      simpa [isPrefixed, hp] using h
    have hform : Operator.frontForm? token.text = none := by
      simp [Operator.frontForm?, hminus, hplus]
    rw [readOperator, hp, if_pos rfl, hform]

/-- A sign that belongs to its operand is the name of an operator on it. -/
theorem readOperator_of_prefixed (h : isPrefixed previous token = true) :
    (readOperator previous token).text = "neg" ∧ token.text = "-" ∨
      (readOperator previous token).text = "pos" ∧ token.text = "+" := by
  simp only [isPrefixed, Bool.and_eq_true, Bool.or_eq_true, beq_iff_eq] at h
  obtain ⟨hp, ht⟩ := h
  rw [readOperator_text hp]
  rcases ht with ht | ht <;> simp [ht, Operator.frontForm?]

/-- An operator takes two operands where it stands between them, and one elsewhere. -/
theorem operands_of_operator (hv : token.IsValid) (hk : token.kind = .operator)
    {instruction : Instruction}
    (hm : Meaning bindings (readOperator previous token) instruction) :
    instruction.operands = if joins previous token then 2 else 1 := by
  have hjoins : joins previous token = (token.text != "!" && !isPrefixed previous token) := by
    rw [joins, hk]
    rfl
  cases hprefixed : isPrefixed previous token with
  | true =>
    have hbinary : Operator.binary? (readOperator previous token).text = none := by
      obtain ⟨ht, -⟩ | ⟨ht, -⟩ := readOperator_of_prefixed hprefixed <;> rw [ht] <;> decide
    obtain ⟨-, hone⟩ | ⟨htwo, -⟩ := hm.of_operator (readOperator_kind previous hk)
    · rw [hone, hjoins, hprefixed, Bool.not_true, Bool.and_false, if_neg Bool.false_ne_true]
    · rw [hbinary] at htwo
      cases htwo
  | false =>
    rw [readOperator_of_not_prefixed hprefixed] at hm
    rw [hjoins, hprefixed]
    obtain ⟨⟨operation, known⟩, hone⟩ | ⟨known, htwo⟩ := hm.of_operator hk
    · rw [hone, Grammar.eq_not_of_unary hv hk known]
      rfl
    · have hnot : token.text ≠ "!" := by
        intro ht
        rw [ht] at known
        exact absurd known (by decide)
      rw [htwo, bne_iff_ne.mpr hnot]
      rfl

/-- A sign that stands for an operator is known. -/
theorem mem_knownSigns (hv : token.IsValid) (hk : token.kind = .operator)
    {instruction : Instruction}
    (hm : Meaning bindings (readOperator previous token) instruction) :
    token.text ∈ knownSigns := by
  cases hprefixed : isPrefixed previous token with
  | true => obtain ⟨-, ht⟩ | ⟨-, ht⟩ := readOperator_of_prefixed hprefixed <;> rw [ht] <;> decide
  | false =>
    rw [readOperator_of_not_prefixed hprefixed] at hm
    have hfind : (Operator.find? token.text).isSome := by
      obtain ⟨⟨operation, known⟩, -⟩ | ⟨known, -⟩ := hm.of_operator hk
      · obtain ⟨o, ho, -⟩ := Option.map_eq_some_iff.mp known
        exact Option.isSome_of_eq_some ho
      · obtain ⟨operation, known⟩ := Option.isSome_iff_exists.mp known
        obtain ⟨o, ho, -⟩ := Option.map_eq_some_iff.mp (Operator.binary?_eq_some_iff.mp known)
        exact Option.isSome_of_eq_some ho
    -- The symbols that are no signs are too long for a lexeme.
    have htable : ∀ o ∈ Operator.table,
        o.symbol ∈ knownSigns ∨ 2 < o.symbol.toList.length := by decide
    obtain ⟨o, ho⟩ := Option.isSome_iff_exists.mp hfind
    obtain ⟨hmem, hsymbol⟩ := Operator.find?_mem ho
    have hlength := hv.length_le hk
    rcases htable o hmem with hknown | hlong
    · exact hsymbol ▸ hknown
    · rw [hsymbol] at hlong
      omega

/-- What comes out for a token takes one operand for each that it is, and one more for itself if it
is an operator between two operands. -/
theorem demand_reading (hv : token.IsValid)
    (hm : ∀ r ∈ reading previous token, ∃ instruction, Meaning bindings r instruction) :
    demand bindings (reading previous token) + (if isOperand bindings token then 1 else 0) =
      (reading previous token).length + (if joins previous token then 1 else 0) := by
  cases hk : token.kind with
  | number =>
    rw [reading, hk, List.forall_mem_singleton] at hm
    obtain ⟨instruction, hm⟩ := hm
    have hdemand : operandsOf bindings token = 0 := by
      rw [hm.operandsOf_eq]
      cases hm <;> simp_all [Instruction.operands]
    rw [reading, hk, Grammar.demand_singleton, hdemand]
    simp [isOperand, joins, hk]
  | identifier =>
    rw [reading, hk, List.forall_mem_singleton] at hm
    obtain ⟨instruction, hm⟩ := hm
    have hdemand : operandsOf bindings token = if hasValue bindings token.text then 0 else 1 := by
      rw [hm.operandsOf_eq]
      cases hm <;> simp_all [Instruction.operands, hasValue]
    rw [reading, hk, Grammar.demand_singleton, hdemand]
    cases hvalue : hasValue bindings token.text <;> simp [isOperand, joins, hk, hvalue]
  | operator =>
    rw [reading, hk, List.forall_mem_singleton] at hm
    obtain ⟨instruction, hm⟩ := hm
    have hoperand : isOperand bindings token = false := by simp [isOperand, hk]
    rw [reading, hk, Grammar.demand_singleton, hm.operandsOf_eq, operands_of_operator hv hk hm, hoperand]
    cases joins previous token <;> rfl
  | opening => simp [reading, demand, isOperand, joins, hk]
  | closing => simp [reading, demand, isOperand, joins, hk]

/-- So do the readings of a row of tokens, all together. -/
theorem demand_readings {tokens : List Token} (hv : ∀ t ∈ tokens, t.IsValid)
    (hm : ∀ r ∈ readings previous tokens, ∃ instruction, Meaning bindings r instruction) :
    demand bindings (readings previous tokens) + tokens.countP (isOperand bindings) =
      (readings previous tokens).length + joinCount previous tokens := by
  induction tokens generalizing previous with
  | nil => rfl
  | cons token tokens ih =>
    rw [List.forall_mem_cons] at hv
    rw [readings, List.forall_mem_append] at hm
    have htoken := demand_reading hv.1 hm.1
    have hrest := ih hv.2 hm.2
    rw [readings, demand_append, List.length_append, List.countP_cons, joinCount]
    omega

/-- What comes out for a token of a row comes out for the row. -/
theorem exists_reading_subset {tokens : List Token} (h : token ∈ tokens)
    (previous : Option Token) :
    ∃ before, reading before token ⊆ readings previous tokens := by
  induction tokens generalizing previous with
  | nil => cases h
  | cons first tokens ih =>
    rcases List.mem_cons.mp h with rfl | h
    · exact ⟨previous, List.subset_append_left _ _⟩
    · obtain ⟨before, hsubset⟩ := ih h (some first)
      exact ⟨before, fun _ hr => List.mem_append_right _ (hsubset hr)⟩

/-- The lone point is no number. -/
theorem read?_point : Number.read? "." = none := by
  decide +kernel

namespace Token

/-- The characters of a lexeme are known, if those of a sign are. -/
theorem IsValid.isKnown_of_mem (hv : IsValid token)
    (hsign : token.kind = .operator → token.text ∈ knownSigns) {c : Char}
    (hc : c ∈ token.text.toList) : isNameChar c = true ∨ c ∈ knownMarks := by
  obtain ⟨kind, text⟩ := token
  cases kind with
  | number =>
    rcases IsNumber.mem hv hc with hdigit | rfl
    · left
      rw [isNameChar, hdigit, Bool.or_true]
      rfl
    · right
      decide
  | identifier => exact .inl (IsName.mem hv hc)
  | operator =>
    have hmarks : ∀ sign ∈ knownSigns, sign.toList ⊆ knownMarks := by decide
    exact .inr (hmarks text (hsign rfl) hc)
  | opening =>
    rw [List.mem_singleton.mp (Eq.mp (congrArg (c ∈ ·) hv) hc)]
    exact .inr (by decide)
  | closing =>
    rw [List.mem_singleton.mp (Eq.mp (congrArg (c ∈ ·) hv) hc)]
    exact .inr (by decide)

/-- Every character that is no blank stands in a token. -/
theorem exists_mem_ofText {text : String} {c : Char} (hc : c ∈ text.toList)
    (hblank : Text.isBlank c = false) : ∃ token ∈ ofText text, c ∈ token.text.toList := by
  have hmem : c ∈ text.toList.filter (!Text.isBlank ·) := List.mem_filter.mpr ⟨hc, by simp [hblank]⟩
  rw [← flatMap_scan, List.mem_flatMap] at hmem
  exact hmem

end Token

namespace Calculator

/-- Every token of an expression with a value stands for something where its place reads it. -/
theorem exists_meaning_of_mem {calculator after : Calculator} {text : String} {value : Float}
    (h : calculator.evaluate text = .ok (value, after)) (ht : token ∈ expressionTokens text) :
    ∃ before, ∀ r ∈ reading before token, ∃ instruction,
      Meaning calculator.bindings r instruction := by
  obtain ⟨rpn, harrange, hvalue, -⟩ := evaluate_eq_ok_iff.mp h
  obtain ⟨before, hsubset⟩ := exists_reading_subset ht none
  refine ⟨before, fun r hr => ?_⟩
  exact Evaluation.exists_meaning (Reckoner.evaluate_eq_ok_iff.mp hvalue)
    ((arrange_perm harrange).mem_iff.mpr (hsubset hr))

variable {calculator after : Calculator} {text : String} {value : Float}

/-- The numbers and names of an expression with a value stand for something as they are written. -/
theorem exists_meaning_of_written (h : calculator.evaluate text = .ok (value, after))
    (ht : token ∈ expressionTokens text)
    (hk : token.kind = .number ∨ token.kind = .identifier) :
    ∃ instruction, Meaning calculator.bindings token instruction := by
  obtain ⟨before, hm⟩ := exists_meaning_of_mem h ht
  have hreading : reading before token = [token] := by
    rcases hk with hk | hk <;> rw [reading, hk]
  rw [hreading, List.forall_mem_singleton] at hm
  exact hm

/-- No number of an expression with a value is a lone point. -/
theorem number_ne_point (h : calculator.evaluate text = .ok (value, after))
    (ht : token ∈ expressionTokens text) (hk : token.kind = .number) : token.text ≠ "." := by
  intro hpoint
  obtain ⟨instruction, hm⟩ := exists_meaning_of_written h ht (.inl hk)
  cases hm with
  | number kind read =>
    rw [hpoint, read?_point] at read
    cases read
  | _ => simp_all

/-- The names of an expression with a value are those of variables, constants and functions. -/
theorem isSome_of_name (h : calculator.evaluate text = .ok (value, after))
    (ht : token ∈ expressionTokens text) (hk : token.kind = .identifier) :
    (calculator.bindings.get? token.text).isSome ∨ (constant? token.text).isSome ∨
      (MathFunction.find? token.text).isSome := by
  obtain ⟨instruction, hm⟩ := exists_meaning_of_written h ht (.inr hk)
  cases hm with
  | recalled kind bound => exact .inl (Option.isSome_of_eq_some bound)
  | constant kind free known => exact .inr (.inl (Option.isSome_of_eq_some known))
  | function kind free plain known => exact .inr (.inr (Option.isSome_of_eq_some known))
  | _ => simp_all

/-- The signs of an expression with a value are known. -/
theorem sign_mem_knownSigns (h : calculator.evaluate text = .ok (value, after))
    (ht : token ∈ expressionTokens text) (hk : token.kind = .operator) :
    token.text ∈ knownSigns := by
  obtain ⟨before, hm⟩ := exists_meaning_of_mem h ht
  rw [reading, hk, List.forall_mem_singleton] at hm
  obtain ⟨instruction, hm⟩ := hm
  exact mem_knownSigns (isValid_of_mem_expressionTokens ht) hk hm

/-- So none of them is a sign of assignment. -/
theorem assignment_not_mem (h : calculator.evaluate text = .ok (value, after)) :
    .operator "=" ∉ expressionTokens text :=
  fun ht => absurd (sign_mem_knownSigns h ht rfl) (by decide)

/-- A sign of assignment that is not in the expression stands behind the name in front. -/
theorem front_of_assignment (hnot : .operator "=" ∉ expressionTokens text)
    {front back : List Token} (h : Token.ofText text = front ++ .operator "=" :: back) :
    ∃ name, front = [.identifier name] := by
  rw [ofText_eq] at h
  cases htarget : (Statement.ofTokens (Token.ofText text)).target with
  | none =>
    rw [htarget, Option.elim, List.nil_append] at h
    rw [h] at hnot
    exact absurd (List.mem_append_right _ List.mem_cons_self) hnot
  | some name =>
    rw [htarget, Option.elim] at h
    match front, h with
    | [], h => cases h
    | [_], h =>
      cases h
      exact ⟨name, rfl⟩
    | _ :: _ :: front, h =>
      have hrest : expressionTokens text = front ++ .operator "=" :: back :=
        (List.cons.inj (List.cons.inj h).2).2
      rw [hrest] at hnot
      exact absurd (List.mem_append_right _ List.mem_cons_self) hnot

/-- The characters of a text with a value are known. -/
theorem isKnown_of_mem (h : calculator.evaluate text = .ok (value, after)) {c : Char}
    (hc : c ∈ text.toList) :
    Text.isBlank c = true ∨ Token.isNameChar c = true ∨ c ∈ knownMarks := by
  cases hblank : Text.isBlank c with
  | true => exact .inl rfl
  | false =>
    right
    obtain ⟨token, ht, hc⟩ := Token.exists_mem_ofText hc hblank
    have hvalid := Token.isValid_of_mem_ofText ht
    rw [ofText_eq, List.mem_append] at ht
    rcases ht with hhead | hbody
    · cases htarget : (Statement.ofTokens (Token.ofText text)).target with
      | none =>
        rw [htarget] at hhead
        cases hhead
      | some name =>
        rw [htarget, Option.elim, List.mem_pair] at hhead
        rcases hhead with rfl | rfl
        · exact hvalid.isKnown_of_mem nofun hc
        · right
          rw [List.mem_singleton.mp hc]
          decide
    · exact hvalid.isKnown_of_mem (sign_mem_knownSigns h hbody) hc

/-- The operands of an expression with a value are one more than its operators between operands. -/
theorem countP_isOperand (h : calculator.evaluate text = .ok (value, after)) :
    (expressionTokens text).countP (isOperand calculator.bindings) =
      joinCount none (expressionTokens text) + 1 := by
  obtain ⟨rpn, harrange, hvalue, -⟩ := evaluate_eq_ok_iff.mp h
  have hrun := Reckoner.evaluate_eq_ok_iff.mp hvalue
  have hperm := arrange_perm harrange
  have hlength := Evaluation.runFrom_length hrun
  have hdemand : demand calculator.bindings rpn =
      demand calculator.bindings (readings none (expressionTokens text)) := demand_perm hperm
  have hcount := demand_readings (fun _ ht => isValid_of_mem_expressionTokens ht) fun r hr =>
    Evaluation.exists_meaning hrun (hperm.mem_iff.mpr hr)
  rw [hperm.length_eq, hdemand, List.length_singleton, List.length_nil] at hlength
  omega

/-- In an expression that has a value every sign is known, no number is a lone point, every name is
known, and the operands are one more than the operators between operands. A sign of assignment
stands behind a name at the start and nowhere else, and no other unknown character stands in the
text. -/
theorem uses_every_token (h : calculator.evaluate text = .ok (value, after)) :
    (∀ token ∈ expressionTokens text, token.kind = .operator → token.text ∈ knownSigns) ∧
    (∀ front back, Token.ofText text = front ++ .operator "=" :: back →
      ∃ name, front = [.identifier name]) ∧
    (∀ c ∈ text.toList, Text.isBlank c = true ∨ Token.isNameChar c = true ∨ c ∈ knownMarks) ∧
    (∀ token ∈ expressionTokens text, token.kind = .number → token.text ≠ ".") ∧
    (∀ token ∈ expressionTokens text, token.kind = .identifier →
      (calculator.bindings.get? token.text).isSome ∨ (constant? token.text).isSome ∨
        (MathFunction.find? token.text).isSome) ∧
    (expressionTokens text).countP (isOperand calculator.bindings) =
      joinCount none (expressionTokens text) + 1 := by
  exact ⟨fun _ ht hk => sign_mem_knownSigns h ht hk,
    fun _ _ hsplit => front_of_assignment (assignment_not_mem h) hsplit,
    fun _ hc => isKnown_of_mem h hc, fun _ ht hk => number_ne_point h ht hk,
    fun _ ht hk => isSome_of_name h ht hk, countP_isOperand h⟩

/-- Signs in front of operands join none, and neither does a function: two signs are left between
three operands. -/
theorem uses_every_token_signed_difference :
    (∃ value after, evaluate ⟨⟨[("y", 3)]⟩⟩ "x = -y - 2 * abs(+y)" = .ok (value, after)) ∧
      (expressionTokens "x = -y - 2 * abs(+y)").countP (isOperand ⟨[("y", 3)]⟩) =
        joinCount none (expressionTokens "x = -y - 2 * abs(+y)") + 1 := by
  have hok : (evaluate ⟨⟨[("y", 3)]⟩⟩ "x = -y - 2 * abs(+y)").isOk = true := by decide +kernel
  cases h : evaluate ⟨⟨[("y", 3)]⟩⟩ "x = -y - 2 * abs(+y)" with
  | error failure =>
    rw [h] at hok
    cases hok
  | ok result => exact ⟨⟨_, _, rfl⟩, (uses_every_token h).2.2.2.2.2⟩

end Calculator

end Reckoner
