import Reckoner.Grammar.Denotation
import Reckoner.Proofs.DepthScan
import Reckoner.Proofs.PostOrder
import Reckoner.Proofs.StackHeight

/-!
# Calls of names with values

A name that has a value does not take its argument when it is called, but puts its value on top of
it. So each such call of an expression leaves one value more than its place asks for, however deep
it stands, and no operator ever lacks an operand. In the end too many values are left: the
expression fails, and none of the numbers that came about on the way is its value.
-/

namespace Reckoner

/-- How many calls of an expression are of names with a value. -/
def Expression.shadowed (bindings : Bindings) (e : Expression) : Nat :=
  e.callees.countP (hasValue bindings)

/-- The failures of a number and of a name that stand for nothing. -/
inductive Failure.IsUnknown : Failure → Prop where
  /-- A literal that is no number. -/
  | number (text : String) : IsUnknown (.invalidNumber text)
  /-- A name that nothing is known by. -/
  | name (name : String) : IsUnknown (.unknownIdentifier name)

namespace Depth

/-- The scan of some tokens adds as many values to any depth, unless a number or a name among them
stands for nothing. -/
def Adds (bindings : Bindings) (count : Nat) (tokens : List Token) : Prop :=
  ∀ depth, scan bindings.isBound depth tokens = .ok (depth + count) ∨
    ∃ failure, scan bindings.isBound depth tokens = .error failure ∧ failure.IsUnknown

variable {bindings : Bindings} {count more : Nat} {tokens second : List Token} {token : Token}

/-- No tokens add nothing. -/
theorem adds_nil (bindings : Bindings) : Adds bindings 0 [] :=
  fun _ => .inl rfl

/-- Two rows of tokens add what each of them adds. -/
theorem Adds.append (h : Adds bindings count tokens) (hsecond : Adds bindings more second) :
    Adds bindings (count + more) (tokens ++ second) := by
  intro depth
  rw [scan_append, ← Nat.add_assoc]
  obtain hfirst | ⟨failure, hfails, hunknown⟩ := h depth
  · rw [hfirst]
    exact hsecond (depth + count)
  · rw [hfails]
    exact .inr ⟨failure, rfl, hunknown⟩

/-- A token behind some others takes its operands from what these add, and adds one value. -/
theorem Adds.apply {instruction : Instruction}
    (h : Adds bindings (count + instruction.operands) tokens)
    (hm : Meaning bindings token instruction) : Adds bindings (count + 1) (tokens ++ [token]) := by
  intro depth
  rw [scan_append]
  obtain hfirst | ⟨failure, hfails, hunknown⟩ := h depth
  · left
    rw [hfirst]
    change scan bindings.isBound _ [token] = _
    rw [scan_singleton, step_of_meaning hm, spend_of_le token.text (by omega)]
    congr 1
    omega
  · rw [hfails]
    exact .inr ⟨failure, rfl, hunknown⟩

/-- Behind a number or a name that stands for nothing, nothing is counted any more. -/
theorem Adds.unknown {failure : Failure} (h : Adds bindings more tokens)
    (hm : Meaningless bindings token failure) (hunknown : failure.IsUnknown) :
    Adds bindings count (tokens ++ [token]) := by
  intro depth
  right
  rw [scan_append]
  obtain hfirst | ⟨earlier, hfails, hearlier⟩ := h depth
  · rw [hfirst]
    change ∃ failure, scan bindings.isBound _ [token] = _ ∧ _
    rw [scan_singleton, step_of_meaningless hm]
    exact ⟨failure, rfl, hunknown⟩
  · rw [hfails]
    exact ⟨earlier, rfl, hearlier⟩

/-- A number adds one value. -/
theorem adds_number (bindings : Bindings) (text : String) : Adds bindings 1 [.number text] := by
  cases hread : Number.read? text with
  | some value =>
    have hm : Meaning bindings (.number text) (.literal value) := .number rfl hread
    exact (adds_nil bindings).apply hm
  | none =>
    have hm : Meaningless bindings (.number text) (.invalidNumber text) := .number rfl hread
    exact (adds_nil bindings).unknown hm (.number text)

/-- A name with a value adds one value, whatever stands before it. -/
theorem Adds.value {name : String} (h : Adds bindings count tokens)
    (hvalue : hasValue bindings name = true) :
    Adds bindings (count + 1) (tokens ++ [.identifier name]) := by
  cases hbound : bindings.get? name with
  | some value =>
    have hm : Meaning bindings (.identifier name) (.recall name value) := .recalled rfl hbound
    exact h.apply hm
  | none =>
    have hconstant : (constant? name).isSome := by simpa [hasValue, hbound] using hvalue
    obtain ⟨value, hknown⟩ := Option.isSome_iff_exists.mp hconstant
    have hm : Meaning bindings (.identifier name) (.literal value) := .constant rfl hbound hknown
    exact h.apply hm

/-- A name without a value takes one value and adds one. -/
theorem Adds.call {name : String} (h : Adds bindings (count + 1) tokens)
    (hvalue : hasValue bindings name = false) :
    Adds bindings (count + 1) (tokens ++ [.identifier name]) := by
  obtain ⟨hfree, hplain⟩ : bindings.get? name = none ∧ constant? name = none := by
    simpa [hasValue] using hvalue
  cases hfind : MathFunction.find? name with
  | some f =>
    have hm : Meaning bindings (.identifier name) (.call f) := .function rfl hfree hplain hfind
    exact h.apply hm
  | none =>
    have hm : Meaningless bindings (.identifier name) (.unknownIdentifier name) :=
      .name rfl hfree hplain hfind
    exact h.unknown hm (.name name)

/-- A name that is not the name of a function only adds one value. -/
theorem adds_name {name : String}
    (h : (MathFunction.find? name).isSome → (bindings.get? name).isSome) :
    Adds bindings 1 [.identifier name] := by
  cases hvalue : hasValue bindings name with
  | true => exact (adds_nil bindings).value hvalue
  | false =>
    obtain ⟨hfree, hplain⟩ : bindings.get? name = none ∧ constant? name = none := by
      simpa [hasValue] using hvalue
    have hfind : MathFunction.find? name = none := by simpa [hfree] using h
    have hm : Meaningless bindings (.identifier name) (.unknownIdentifier name) :=
      .name rfl hfree hplain hfind
    exact (adds_nil bindings).unknown hm (.name name)

/-- A sign between operands takes one of their values. -/
theorem Adds.between {sign : String} {left right : Nat} (hl : Adds bindings (left + 1) tokens)
    (hr : Adds bindings (right + 1) second) (hs : (Operator.binary? sign).isSome) :
    Adds bindings (left + right + 1) (tokens ++ second ++ [.operator sign]) := by
  obtain ⟨operation, hknown⟩ := Option.isSome_iff_exists.mp hs
  have hm : Meaning bindings (.operator sign) (.binary sign operation) := .binary rfl hknown
  have hboth : Adds bindings (left + right + 2) (tokens ++ second) := by
    have hsum : left + 1 + (right + 1) = left + right + 2 := by omega
    exact hsum ▸ hl.append hr
  exact hboth.apply hm

/-- A sign in front of an operand takes its value and adds one. -/
theorem Adds.front {sign : String} (h : Adds bindings (count + 1) tokens)
    (hs : sign ∈ Grammar.frontSigns) :
    Adds bindings (count + 1) (tokens ++
      [.operator (if sign = "-" then "neg" else if sign = "+" then "pos" else sign)]) := by
  have hunary : ∃ operation, (Operator.find? (if sign = "-" then "neg" else
      if sign = "+" then "pos" else sign)).map Operator.operation = some (.unary operation) := by
    simp only [Grammar.frontSigns, List.mem_cons, List.not_mem_nil, or_false] at hs
    obtain rfl | rfl | rfl := hs
    · exact ⟨.negate, rfl⟩
    · exact ⟨.keep, rfl⟩
    · exact ⟨.not, rfl⟩
  obtain ⟨operation, hknown⟩ := hunary
  exact h.apply (.unary rfl hknown)

/-- An expression adds one value, and one more for each call of a name with a value. -/
theorem adds_postOrder {level : Int} {tokens : List Token} {e : Expression}
    (h : Grammar.Derives 0 level tokens e) (hl : 0 ≤ level)
    (hnames : ∀ name ∈ e.names, (MathFunction.find? name).isSome → (bindings.get? name).isSome) :
    Adds bindings (e.shadowed bindings + 1) e.postOrder := by
  induction h with
  | tighter _ _ ih => exact ih (by omega) hnames
  | leftward known _ _ ihl ihr =>
    rw [Expression.names, List.forall_mem_append] at hnames
    have hsign := Grammar.BinarySign.isSome (.inl known) hl
    rw [Expression.shadowed, Expression.callees, List.countP_append]
    exact (ihl hl hnames.1).between (ihr (by omega) hnames.2) hsign
  | rightward known _ _ ihl ihr =>
    rw [Expression.names, List.forall_mem_append] at hnames
    have hsign := Grammar.BinarySign.isSome (.inr ⟨rfl, known⟩) hl
    rw [Expression.shadowed, Expression.callees, List.countP_append]
    exact (ihl (by decide) hnames.1).between (ihr hl hnames.2) hsign
  | front known _ ih => exact (ih hl hnames).front known
  | number text => exact adds_number bindings text
  | name word => exact adds_name (hnames word List.mem_cons_self)
  | group _ ih => exact ih (Int.le_refl 0) hnames
  | call callee _ ih =>
    have hargument := ih (Int.le_refl 0) hnames
    rw [Expression.shadowed, Expression.callees, List.countP_append, List.countP_singleton]
    cases hvalue : hasValue bindings callee with
    | true => exact hargument.value hvalue
    | false => exact hargument.call hvalue

end Depth

/-- A run over the post-order of an expression leaves one value, and one more for each call of a name
with a value, or fails at a number or a name that stands for nothing or for want of a value. -/
theorem Evaluation.length_of_shadowed {bindings : Bindings} {level : Int} {tokens : List Token}
    {e : Expression} (h : Grammar.Derives 0 level tokens e) (hl : 0 ≤ level)
    (hnames : ∀ name ∈ e.names, (MathFunction.find? name).isSome → (bindings.get? name).isSome)
    (stack : List Float) :
    (∃ after, runFrom bindings stack e.postOrder = .ok after ∧
        after.length = stack.length + (e.shadowed bindings + 1)) ∨
      ∃ failure, runFrom bindings stack e.postOrder = .error failure ∧
        (failure.IsUnknown ∨ failure.IsNumeric) := by
  obtain hstep | ⟨failure, hfails, ⟨_, _, _, _, _, _, hnumeric, _⟩⟩ :=
    map_length_runFrom bindings stack e.postOrder
  · obtain hscan | ⟨failure, hscan, hunknown⟩ := Depth.adds_postOrder h hl hnames stack.length
    · rw [hscan] at hstep
      exact .inl (Outcome.map_eq_ok_iff.mp hstep)
    · rw [hscan] at hstep
      exact .inr ⟨failure, Outcome.map_eq_error_iff.mp hstep, .inl hunknown⟩
  · exact .inr ⟨failure, hfails, .inr hnumeric⟩

/-- An expression that calls a name with a value has no value itself. It fails at one of its tokens,
which is never for want of operands, or at the end, where one value more than there are such calls
is left. -/
theorem shadowed_call_fails {bindings : Bindings} {tokens : List Token} {e : Expression}
    (h : Grammar.Derives 0 0 tokens e)
    (hnames : ∀ name ∈ e.names, (MathFunction.find? name).isSome → (bindings.get? name).isSome)
    (hshadowed : 1 ≤ e.shadowed bindings) :
    ∃ rpn failure, Rpn.arrange tokens = .ok rpn ∧ evaluate bindings rpn = .error failure ∧
      ((∃ before token behind, rpn = before ++ token :: behind ∧
          Evaluation.FailsAt bindings [] before token failure ∧
          (failure.IsUnknown ∨ failure.IsNumeric)) ∨
        failure = .leftOver (e.shadowed bindings + 1)) := by
  have harrange : Rpn.arrange tokens = .ok e.postOrder := (Rpn.readsAs_postOrder h).arrange
  obtain ⟨after, hrun, hlength⟩ | ⟨failure, hrun, hreason⟩ :=
    Evaluation.length_of_shadowed h (Int.le_refl 0) hnames []
  · rw [List.length_nil, Nat.zero_add] at hlength
    refine ⟨e.postOrder, .leftOver (e.shadowed bindings + 1), harrange, ?_, .inr rfl⟩
    rw [evaluate_eq_bind, hrun, ← hlength]
    exact Evaluation.onlyValue_of_length_ne (by omega)
  · refine ⟨e.postOrder, failure, harrange, ?_, .inl ?_⟩
    · rw [evaluate_eq_bind, hrun]
      rfl
    · obtain ⟨before, token, behind, hsplit, hfails⟩ := Evaluation.exists_failsAt hrun
      exact ⟨before, token, behind, hsplit, hfails, hreason⟩

/-- The call of a variable inside the call of a constant leaves three values in the end. -/
theorem shadowed_call_fails_nested :
    Expression.shadowed ⟨[("sin", 3), ("x", 1)]⟩
        (.between "*" (.call "e" (.front "-" (.call "sin" (.name "x")))) (.number "2")) = 2 ∧
      ∃ rpn, Rpn.arrange [.identifier "e", .opening, .operator "-", .identifier "sin", .opening,
          .identifier "x", .closing, .closing, .operator "*", .number "2"] = .ok rpn ∧
        evaluate ⟨[("sin", 3), ("x", 1)]⟩ rpn = .error (.leftOver 3) := by
  have hargument : Grammar.Derives 0 0 [.identifier "x"] (.name "x") :=
    (Grammar.Derives.name "x").loosen (by decide) (by decide)
  have hnegative : Grammar.Derives 0 0
      (.operator "-" :: (.identifier "sin" :: .opening :: [.identifier "x"] ++ [.closing]))
      (.front "-" (.call "sin" (.name "x"))) :=
    (Grammar.Derives.front (by decide) (.call "sin" hargument)).loosen (by decide) (by decide)
  have hcall := (Grammar.Derives.call "e" hnegative).loosen (by decide : 5 ≤ (7 : Int)) (by decide)
  have htwo : Grammar.Derives 0 (5 + 1) [.number "2"] (.number "2") :=
    (Grammar.Derives.number "2").loosen (by decide) (by decide)
  have hsign : Grammar.LeftSign 5 "*" := by simp [Grammar.LeftSign]
  have hproduct := (Grammar.Derives.leftward hsign hcall htwo).loosen
    (by decide : 0 ≤ (5 : Int)) (by decide)
  have hnames : ∀ name ∈ ["x"], (MathFunction.find? name).isSome →
      (Bindings.get? ⟨[("sin", 3), ("x", 1)]⟩ name).isSome := by simp [Bindings.get?]
  have hshadowed : Expression.shadowed ⟨[("sin", 3), ("x", 1)]⟩
      (.between "*" (.call "e" (.front "-" (.call "sin" (.name "x")))) (.number "2")) = 2 := by
    decide
  have hleft : evaluate ⟨[("sin", 3), ("x", 1)]⟩ [.identifier "x", .identifier "sin",
      .operator "neg", .identifier "e", .number "2", .operator "*"] = .error (.leftOver 3) := rfl
  obtain ⟨rpn, failure, harrange, hfails, hreason⟩ :=
    shadowed_call_fails hproduct hnames (hshadowed ▸ Nat.one_lt_two.le)
  refine ⟨hshadowed, rpn, harrange, ?_⟩
  obtain rfl : [.identifier "x", .identifier "sin", .operator "neg", .identifier "e",
    .number "2", .operator "*"] = rpn := Except.ok.inj harrange
  obtain ⟨-, -, -, -, -, hunknown | hnumeric⟩ | rfl := hreason
  · rw [hleft] at hfails
    cases hfails
    cases hunknown
  · rw [hleft] at hfails
    cases hfails
    cases hnumeric
  · exact hfails

end Reckoner
