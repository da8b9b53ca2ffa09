import Reckoner.Calculator
import Reckoner.Proofs.StackHeight

/-!
# What the calculator accepts

A text that has a value has balanced parentheses, and the run over its tokens leaves exactly one
value. Where operands are separate this leaves room for a misplaced token only if it is made up
for by a called name that has a value. So what is accepted is an expression of the grammar, up to
operands that stand side by side and names of values in the place of functions.
-/

namespace Reckoner.Calculator

/-- The tokens of the expression that a text writes, without the name it assigns to. -/
def expressionTokens (text : String) : List Token :=
  (Statement.ofTokens (Token.ofText text)).body

/-- In front of the tokens of the expression stand the name that is assigned to and its sign, if the
text assigns at all. -/
theorem ofText_eq (text : String) :
    Token.ofText text = (Statement.ofTokens (Token.ofText text)).target.elim []
      (fun name => [.identifier name, .operator "="]) ++ expressionTokens text := by
  unfold expressionTokens Statement.ofTokens
  split
  next name htarget =>
    unfold Statement.targetOf? at htarget
    split at htarget
    next head sign rest htokens =>
      split at htarget
      next hhead =>
        cases htarget
        have hname : Token.identifier head.text = head := congrArg (Token.mk · head.text) hhead.1.symm
        rw [htokens, hhead.2, Option.elim, hname]
        rfl
      next => cases htarget
    next => cases htarget
  next => rfl

/-- The tokens of an expression are tokens of its text. -/
theorem mem_ofText_of_mem_expressionTokens {token : Token} {text : String}
    (h : token ∈ expressionTokens text) : token ∈ Token.ofText text := by
  rw [ofText_eq]
  exact List.mem_append_right _ h

/-- The tokens of an expression are lexemes. -/
theorem isValid_of_mem_expressionTokens {token : Token} {text : String}
    (h : token ∈ expressionTokens text) : token.IsValid :=
  Token.isValid_of_mem_ofText (mem_ofText_of_mem_expressionTokens h)

/-- A text is ready for evaluation exactly if its tokens can be arranged. -/
theorem prepare_eq_ok_iff {text : String} {prepared : Prepared} :
    prepare text = .ok prepared ↔ ∃ rpn, Rpn.arrange (expressionTokens text) = .ok rpn ∧
      ⟨(Statement.ofTokens (Token.ofText text)).target, rpn⟩ = prepared := by
  change ((Rpn.arrange (expressionTokens text)).bind fun rpn =>
    .ok (Prepared.mk (Statement.ofTokens (Token.ofText text)).target rpn)) = _ ↔ _
  simp only [Outcome.bind_eq_ok_iff, Except.ok.injEq]

/-- A text has a value exactly if its tokens can be arranged and their arrangement has the value. -/
theorem evaluate_eq_ok_iff {calculator after : Calculator} {text : String} {value : Float} :
    calculator.evaluate text = .ok (value, after) ↔
      ∃ rpn, Rpn.arrange (expressionTokens text) = .ok rpn ∧
        Reckoner.evaluate calculator.bindings rpn = .ok value ∧
        after = calculator.commit (Statement.ofTokens (Token.ofText text)).target value := by
  change ((prepare text).bind fun prepared =>
    (Reckoner.evaluate calculator.bindings prepared.rpn).bind fun value =>
      .ok (value, calculator.commit prepared.target value)) = _ ↔ _
  simp only [Outcome.bind_eq_ok_iff, prepare_eq_ok_iff, Except.ok.injEq, Prod.mk.injEq]
  constructor
  · rintro ⟨prepared, ⟨rpn, ha, rfl⟩, result, he, rfl, rfl⟩
    exact ⟨rpn, ha, he, rfl⟩
  · rintro ⟨rpn, ha, he, rfl⟩
    exact ⟨_, ⟨rpn, ha, rfl⟩, value, he, rfl, rfl⟩

/-- A text has a value or fails. If it has one, its expression is derivable exactly if no operand
begins directly behind another and no more called names have a value than other names have none. -/
theorem evaluate_fails_or_derivable_iff (calculator : Calculator) (text : String) :
    (∃ failure, calculator.evaluate text = .error failure) ∨
      (∃ value after, calculator.evaluate text = .ok (value, after)) ∧
        (Grammar.Derivable (expressionTokens text) ↔
          Grammar.Separate none (expressionTokens text) ∧
            (Grammar.namesIn true (expressionTokens text)).countP
                (hasValue calculator.bindings) ≤
              (Grammar.namesIn false (expressionTokens text)).countP
                (!hasValue calculator.bindings ·)) := by
  cases h : calculator.evaluate text with
  | error failure => exact .inl ⟨failure, rfl⟩
  | ok result =>
    obtain ⟨value, after⟩ := result
    refine .inr ⟨⟨value, after, rfl⟩, ?_⟩
    obtain ⟨rpn, ha, he, -⟩ := evaluate_eq_ok_iff.mp h
    have hv : ∀ t ∈ expressionTokens text, t.IsValid :=
      fun _ ht => isValid_of_mem_expressionTokens ht
    have hb : Rpn.Closes 0 (expressionTokens text) := Rpn.closes_of_arrangeFrom ha
    rw [Grammar.derivable_iff_placed hv hb]
    constructor
    · intro hp
      have hcount := Grammar.countP_called_eq hv hp.separate ha he
      rw [Grammar.misplaced_eq_zero_iff.mpr hp] at hcount
      exact ⟨hp.separate, hcount.le⟩
    · rintro ⟨hs, hle⟩
      have hcount := Grammar.countP_called_eq hv hs ha he
      exact Grammar.misplaced_eq_zero_iff.mp (by omega)

/-- An empty group in front of an operand and a constant in the place of a function are accepted,
though neither text is derivable. -/
theorem accepts_empty_group :
    ((∃ value, fresh.evaluate "() 5" = .ok (value, fresh)) ∧
        ¬ Grammar.Derivable (expressionTokens "() 5")) ∧
      (∃ value, fresh.evaluate "pi()" = .ok (value, fresh)) ∧
        ¬ Grammar.Derivable (expressionTokens "pi()") := by
  have hgroup : expressionTokens "() 5" = [.opening, .closing, .number "5"] := by decide +kernel
  have hcall : expressionTokens "pi()" = [.identifier "pi", .opening, .closing] := by
    decide +kernel
  have hplace : Grammar.fits (some .opening) .closing ≠ true := by decide
  refine ⟨⟨?_, ?_⟩, ?_, ?_⟩
  · have hnumber : (Number.read? "5").isSome := by decide +kernel
    obtain ⟨value, hvalue⟩ := Option.isSome_iff_exists.mp hnumber
    have hmeaning : Meaning fresh.bindings (.number "5") (.literal value) := .number rfl hvalue
    have htarget : (Statement.ofTokens (Token.ofText "() 5")).target = none := by decide +kernel
    refine ⟨value, evaluate_eq_ok_iff.mpr ⟨_, ?_, Reckoner.evaluate_literal hmeaning, ?_⟩⟩
    · rw [hgroup]
      rfl
    · rw [htarget]
      rfl
  · rw [hgroup]
    exact fun h => hplace h.placed.2.1
  · have hconstant : constant? "pi" = some pi := by simp [constant?]
    have hmeaning : Meaning fresh.bindings (.identifier "pi") (.literal pi) :=
      .constant rfl rfl hconstant
    have htarget : (Statement.ofTokens (Token.ofText "pi()")).target = none := by decide +kernel
    refine ⟨pi, evaluate_eq_ok_iff.mpr ⟨_, ?_, Reckoner.evaluate_literal hmeaning, ?_⟩⟩
    · rw [hcall]
      rfl
    · rw [htarget]
      rfl
  · rw [hcall]
    exact fun h => hplace h.placed.2.2.1

end Reckoner.Calculator
