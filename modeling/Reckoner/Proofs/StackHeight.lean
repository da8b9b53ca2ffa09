import Mathlib.Algebra.GroupWithZero.Nat
import Reckoner.Proofs.Placement
import Reckoner.Proofs.StackRun

/-!
# How many values are left

A run that ends well leaves one value for each of its tokens and takes the operands of each away.
The order of the tokens does not matter for this count. So it can be made while the tokens are read
as they are written: between two tokens either an operand is complete or one is awaited, and the
values left differ from that only where a token does not fit, where a called name has a value, and
where a name that is not called has none.
-/

namespace Reckoner

/-- How many values a token takes from the stack. -/
def operandsOf (bindings : Bindings) (token : Token) : Nat :=
  match Instruction.ofToken bindings token with
  | .ok instruction => instruction.operands
  | .error _ => 0

/-- How many values some tokens take from the stack, all together. -/
def demand (bindings : Bindings) (tokens : List Token) : Nat :=
  (tokens.map (operandsOf bindings)).sum

/-- Whether a name stands for a variable or a constant. -/
def hasValue (bindings : Bindings) (name : String) : Bool :=
  (bindings.get? name).isSome || (constant? name).isSome

variable {bindings : Bindings}

/-- A token takes the operands of its instruction. -/
theorem Meaning.operandsOf_eq {token : Token} {instruction : Instruction}
    (h : Meaning bindings token instruction) :
    operandsOf bindings token = instruction.operands := by
  rw [operandsOf, ofToken_eq_ok_iff.mpr h]

/-- A run leaves one value for each token and takes away the operands of each. -/
theorem Evaluation.runFrom_length {stack after : List Float} {tokens : List Token}
    (h : runFrom bindings stack tokens = .ok after) :
    after.length + demand bindings tokens = stack.length + tokens.length := by
  induction tokens generalizing stack with
  | nil =>
    cases h
    rfl
  | cons token tokens ih =>
    obtain ⟨instruction, between, hi, he, hr⟩ := runFrom_cons_eq_ok_iff.mp h
    have hlength := Instruction.execute_length he
    have hrest := ih hr
    have htoken := (ofToken_eq_ok_iff.mp hi).operandsOf_eq
    simp only [demand, List.map_cons, List.sum_cons, List.length_cons] at hrest ⊢
    omega

/-- Each token of a run that ends well has an instruction. -/
theorem Evaluation.exists_meaning {stack after : List Float} {tokens : List Token}
    (h : runFrom bindings stack tokens = .ok after) {token : Token} (ht : token ∈ tokens) :
    ∃ instruction, Meaning bindings token instruction := by
  induction tokens generalizing stack with
  | nil => cases ht
  | cons first tokens ih =>
    obtain ⟨instruction, between, hi, -, hr⟩ := runFrom_cons_eq_ok_iff.mp h
    rcases List.mem_cons.mp ht with rfl | ht
    · exact ⟨instruction, ofToken_eq_ok_iff.mp hi⟩
    · exact ih hr ht

/-- The order of the tokens does not change what they take. -/
theorem demand_perm {first second : List Token} (h : first.Perm second) :
    demand bindings first = demand bindings second :=
  (h.map _).sum_nat

/-- Two rows of tokens take what each of them takes. -/
theorem demand_append (first second : List Token) :
    demand bindings (first ++ second) = demand bindings first + demand bindings second := by
  rw [demand, List.map_append, List.sum_append_nat]
  rfl

namespace Grammar

open Rpn

/-- The name that a token is, if it stands in front of an opening parenthesis or if it does not. -/
def nameAt (called : Bool) (token : Token) (next : Option Token) : List String :=
  if token.kind == .identifier && next.any isOpening == called then [token.text] else []

/-- The names that are called in a row of tokens, or those that are not. -/
def namesIn (called : Bool) : List Token → List String
  | [] => []
  | token :: tokens => nameAt called token tokens.head? ++ namesIn called tokens

/-- How many operands are complete between two tokens: one or none. A name in front of an opening
parenthesis is no operand yet. -/
def occupied (previous next : Option Token) : Nat :=
  if isFrontPosition previous || previous.any (·.kind == .identifier) && next.any isOpening then 0
  else 1

/-- How many tokens do not fit behind those in front of them, and the end with them if an operand is
awaited there. -/
def misplaced : Option Token → List Token → Nat
  | previous, [] => if isFrontPosition previous then 1 else 0
  | previous, token :: tokens =>
    (if fits previous token then 0 else 1) + misplaced (some token) tokens

/-- The count of values behind a token: what is complete then, is what was before it, and what it
leaves; a called name with a value leaves one too much, and a token that does not fit and a name
without a value that is not called one too few. -/
def Counts (bindings : Bindings) (previous : Option Token) (token : Token) (next : Option Token) :
    Prop :=
  occupied (some token) next + demand bindings (reading previous token) +
      (nameAt true token next).countP (hasValue bindings) =
    occupied previous (some token) + (reading previous token).length +
      (nameAt false token next).countP (!hasValue bindings ·) +
      (if fits previous token then 0 else 1)

/-- Where a sign in front of an operand may stand, nothing is complete. -/
theorem occupied_front {previous : Option Token} (h : isFrontPosition previous = true)
    (next : Option Token) : occupied previous next = 0 := by
  rw [occupied, h]
  rfl

/-- A name in front of an opening parenthesis is not complete. -/
theorem occupied_called {previous next : Option Token}
    (h : previous.any (·.kind == .identifier) = true) (hn : next.any isOpening = true) :
    occupied previous next = 0 := by
  rw [occupied, h, hn, Bool.and_self, Bool.or_true]
  rfl

/-- Elsewhere an operand is complete. -/
theorem occupied_behind {previous next : Option Token} (h : isFrontPosition previous = false)
    (hn : next.any isOpening = false) : occupied previous next = 1 := by
  rw [occupied, h, hn, Bool.and_false]
  rfl

/-- A token that is no name has none. -/
theorem nameAt_eq_nil {token : Token} (h : token.kind ≠ .identifier) (called : Bool)
    (next : Option Token) : nameAt called token next = [] := by
  rw [nameAt, beq_eq_false_iff_ne.mpr h]
  rfl

/-- One token takes its operands. -/
theorem demand_singleton (token : Token) : demand bindings [token] = operandsOf bindings token :=
  Nat.add_zero _

section Tokens

variable {previous next : Option Token} {token : Token}

/-- A number counts as an operand. -/
theorem counts_number (hk : token.kind = .number) (hs : adjoins previous token = false)
    {instruction : Instruction} (hm : Meaning bindings token instruction) :
    Counts bindings previous token next := by
  have hfront : isFrontPosition previous = true := by simpa [adjoins, hk] using hs
  have hafter : occupied (some token) next = 1 := by simp [occupied, isFrontPosition, hk]
  have hfits : fits previous token = true := by rw [fits, hk]; exact hfront
  have hdemand : operandsOf bindings token = 0 := by
    rw [hm.operandsOf_eq]
    cases hm <;> simp_all [Instruction.operands]
  have hnone : token.kind ≠ .identifier := by simp [hk]
  rw [Counts, reading, hk, demand_singleton, hdemand, hafter, occupied_front hfront, hfits,
    nameAt_eq_nil hnone, nameAt_eq_nil hnone]
  rfl

/-- A name counts as an operand, unless it takes one. -/
theorem counts_name (hk : token.kind = .identifier) (hs : adjoins previous token = false)
    {instruction : Instruction} (hm : Meaning bindings token instruction) :
    Counts bindings previous token next := by
  have hfront : isFrontPosition previous = true := by simpa [adjoins, hk] using hs
  have hfits : fits previous token = true := by rw [fits, hk]; exact hfront
  have hdemand : operandsOf bindings token = if hasValue bindings token.text then 0 else 1 := by
    rw [hm.operandsOf_eq]
    cases hm <;> simp_all [Instruction.operands, hasValue]
  rw [Counts, reading, hk, demand_singleton, hdemand, occupied_front hfront, hfits]
  cases hn : next.any isOpening with
  | true =>
    rw [occupied_called (by simp [hk]) hn]
    cases hv : hasValue bindings token.text <;> simp [nameAt, hk, hn, hv]
  | false =>
    rw [occupied_behind (by simp [isFrontPosition, hk]) hn]
    cases hv : hasValue bindings token.text <;> simp [nameAt, hk, hn, hv]

/-- The only sign of an operator with one operand is the one that negates truth: the names of the
other two are no lexemes. -/
theorem eq_not_of_unary (hv : token.IsValid) (hk : token.kind = .operator)
    {operation : UnaryOperation}
    (h : (Operator.find? token.text).map Operator.operation = some (.unary operation)) :
    token.text = "!" := by
  have hlength := hv.length_le hk
  obtain ⟨ht, -⟩ | ⟨ht, -⟩ | ⟨ht, -⟩ := Operator.find?_unary_iff.mp h
  · rw [ht] at hlength
    exact absurd hlength (by decide)
  · rw [ht] at hlength
    exact absurd hlength (by decide)
  · exact ht

/-- Signs in front of an operand have no operator with two operands there. -/
theorem binary?_frontForm {sign : String} (h : sign ∈ frontSigns) :
    Operator.binary? ((Operator.frontForm? sign).getD sign) = none := by
  revert sign
  decide

/-- Other signs have one reading only. -/
theorem frontForm?_eq_none {sign : String} (h : sign ∉ frontSigns) :
    Operator.frontForm? sign = none := by
  simp only [frontSigns, List.mem_cons, not_or] at h
  simp [Operator.frontForm?, h.1, h.2.1]

/-- A sign in front of an operand counts as none; another sign in its place takes one too much. -/
theorem counts_front (hv : token.IsValid) (hk : token.kind = .operator)
    (hp : isFrontPosition previous = true) {instruction : Instruction}
    (hm : Meaning bindings (readOperator previous token) instruction) :
    Counts bindings previous token next := by
  have hafter : isFrontPosition (some token) = true := by simp [isFrontPosition, hk]
  have hnone : token.kind ≠ .identifier := by simp [hk]
  have hfits : fits previous token = frontSigns.contains token.text := by
    rw [fits, hk, hp]
    rfl
  have htext := readOperator_text hp token
  have hdemand : operandsOf bindings (readOperator previous token) =
      1 + if frontSigns.contains token.text then 0 else 1 := by
    rw [hm.operandsOf_eq]
    by_cases hs : token.text ∈ frontSigns
    · rw [List.contains_iff_mem.mpr hs]
      obtain ⟨-, hone⟩ | ⟨htwo, -⟩ := hm.of_operator (readOperator_kind previous hk)
      · exact hone
      · rw [htext, binary?_frontForm hs] at htwo
        cases htwo
    · rw [Bool.eq_false_iff.mpr (mt List.contains_iff_mem.mp hs)]
      obtain ⟨⟨operation, known⟩, -⟩ | ⟨-, htwo⟩ := hm.of_operator (readOperator_kind previous hk)
      · rw [htext, frontForm?_eq_none hs, Option.getD_none] at known
        rw [eq_not_of_unary hv hk known] at hs
        exact absurd (by decide) hs
      · exact htwo
  rw [Counts, reading, hk, demand_singleton, hdemand, hfits, occupied_front hafter,
    occupied_front hp, nameAt_eq_nil hnone, nameAt_eq_nil hnone, Nat.zero_add]
  rfl

/-- A sign behind an operand takes this operand and awaits another one. -/
theorem counts_behind (hv : token.IsValid) (hk : token.kind = .operator)
    (hp : isFrontPosition previous = false) (hs : adjoins previous token = false)
    {instruction : Instruction} (hm : Meaning bindings token instruction) :
    Counts bindings previous token next := by
  have hafter : isFrontPosition (some token) = true := by simp [isFrontPosition, hk]
  have hnone : token.kind ≠ .identifier := by simp [hk]
  have hclosed : (some token).any isOpening = false := isOpening_of_kind hk
  have hread := readOperator_behind hp token
  have htext : token.text ≠ "!" := by simpa [adjoins, hp, hk] using hs
  rw [Counts, reading, hk, hread, demand_singleton, hm.operandsOf_eq, occupied_front hafter,
    occupied_behind hp hclosed, nameAt_eq_nil hnone, nameAt_eq_nil hnone, fits, hk, hp]
  obtain ⟨⟨operation, known⟩, -⟩ | ⟨known, htwo⟩ := hm.of_operator hk
  · exact absurd (eq_not_of_unary hv hk known) htext
  · rw [htwo, if_neg Bool.false_ne_true, known]
    rfl

/-- An opening parenthesis changes nothing. -/
theorem counts_opening (hk : token.kind = .opening) (hs : adjoins previous token = false) :
    Counts bindings previous token next := by
  have hafter : isFrontPosition (some token) = true := by simp [isFrontPosition, hk]
  have hnone : token.kind ≠ .identifier := by simp [hk]
  have hopen : (some token).any isOpening = true := isOpening_of_kind hk
  have hbefore : occupied previous (some token) = 0 ∧ fits previous token = true := by
    cases hp : isFrontPosition previous with
    | true => exact ⟨occupied_front hp _, by simp [fits, hk, hp]⟩
    | false =>
      have hcaller : previous.any (·.kind == .identifier) = true := by
        simpa [adjoins, hp, hk] using hs
      exact ⟨occupied_called hcaller hopen, by simp [fits, hk, hcaller]⟩
  rw [Counts, reading, hk, occupied_front hafter, hbefore.1, hbefore.2, nameAt_eq_nil hnone,
    nameAt_eq_nil hnone]
  rfl

/-- Behind a closing parenthesis an operand is complete, even if none was in front of it. -/
theorem counts_closing (hk : token.kind = .closing) : Counts bindings previous token next := by
  have hnone : token.kind ≠ .identifier := by simp [hk]
  have hclosed : (some token).any isOpening = false := isOpening_of_kind hk
  have hafter : occupied (some token) next = 1 := by simp [occupied, isFrontPosition, hk]
  rw [Counts, reading, hk, hafter, nameAt_eq_nil hnone, nameAt_eq_nil hnone, fits, hk]
  cases hp : isFrontPosition previous with
  | true =>
    rw [occupied_front hp]
    rfl
  | false =>
    rw [occupied_behind hp hclosed]
    rfl

/-- Every token of a row counts, if what comes out for it has an instruction and it begins no
operand behind another. -/
theorem counts_token (hv : token.IsValid) (hs : adjoins previous token = false)
    (hm : ∀ r ∈ reading previous token, ∃ instruction, Meaning bindings r instruction) :
    Counts bindings previous token next := by
  cases hk : token.kind with
  | number =>
    rw [reading, hk, List.forall_mem_singleton] at hm
    obtain ⟨instruction, hm⟩ := hm
    exact counts_number hk hs hm
  | identifier =>
    rw [reading, hk, List.forall_mem_singleton] at hm
    obtain ⟨instruction, hm⟩ := hm
    exact counts_name hk hs hm
  | operator =>
    rw [reading, hk, List.forall_mem_singleton] at hm
    obtain ⟨instruction, hm⟩ := hm
    cases hp : isFrontPosition previous with
    | true => exact counts_front hv hk hp hm
    | false =>
      rw [readOperator_behind hp] at hm
      exact counts_behind hv hk hp hs hm
  | opening => exact counts_opening hk hs
  | closing => exact counts_closing hk

end Tokens

/-- Nothing is misplaced exactly if the tokens are placed. -/
theorem misplaced_eq_zero_iff {previous : Option Token} {tokens : List Token} :
    misplaced previous tokens = 0 ↔ Placed previous tokens := by
  induction tokens generalizing previous with
  | nil => simp [misplaced, Placed]
  | cons token tokens ih => simp [misplaced, Placed, ih]

/-- The count over a row of tokens: an operand is complete at its end, unless the end is misplaced
itself. -/
theorem count_readings {tokens : List Token} {previous : Option Token}
    (hv : ∀ t ∈ tokens, t.IsValid) (hs : Separate previous tokens)
    (hm : ∀ r ∈ readings previous tokens, ∃ instruction, Meaning bindings r instruction) :
    1 + demand bindings (readings previous tokens) +
        (namesIn true tokens).countP (hasValue bindings) =
      occupied previous tokens.head? + (readings previous tokens).length +
        (namesIn false tokens).countP (!hasValue bindings ·) + misplaced previous tokens := by
  induction tokens generalizing previous with
  | nil =>
    have hend : occupied previous none + misplaced previous [] = 1 := by
      rw [misplaced]
      cases hp : isFrontPosition previous with
      | true => rw [occupied_front hp]; rfl
      | false => rw [occupied_behind hp rfl]; rfl
    simp only [readings, namesIn, demand, List.head?_nil, List.map_nil, List.sum_nil,
      List.countP_nil, List.length_nil]
    omega
  | cons token tokens ih =>
    rw [List.forall_mem_cons] at hv
    rw [readings, List.forall_mem_append] at hm
    have htoken : Counts bindings previous token tokens.head? := counts_token hv.1 hs.1 hm.1
    have hrest := ih hv.2 hs.2 hm.2
    unfold Counts at htoken
    simp only [readings, namesIn, misplaced, demand_append, List.countP_append,
      List.length_append, List.head?_cons]
    omega

/-- In separate tokens whose arrangement has a value, the called names with a value are as many as
what is misplaced and the names without a value that are not called. -/
theorem countP_called_eq {tokens rpn : List Token} {value : Float}
    (hv : ∀ t ∈ tokens, t.IsValid) (hs : Separate none tokens) (ha : arrange tokens = .ok rpn)
    (he : evaluate bindings rpn = .ok value) :
    (namesIn true tokens).countP (hasValue bindings) =
      (namesIn false tokens).countP (!hasValue bindings ·) + misplaced none tokens := by
  have hrun := evaluate_eq_ok_iff.mp he
  have hperm := arrange_perm ha
  have hlength := Evaluation.runFrom_length hrun
  have hdemand : demand bindings rpn = demand bindings (readings none tokens) := demand_perm hperm
  have hcount := count_readings hv hs fun r hr =>
    Evaluation.exists_meaning hrun (hperm.mem_iff.mpr hr)
  have hstart : occupied none tokens.head? = 0 := occupied_front rfl _
  rw [hperm.length_eq] at hlength
  simp only [List.length_singleton, List.length_nil] at hlength
  -- The one value that is left is the operand that is complete at the end.
  omega

end Grammar

end Reckoner
