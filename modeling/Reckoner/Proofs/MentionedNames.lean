import Reckoner.Proofs.Explanation
import Reckoner.Proofs.Substitution

/-!
# The names that an expression mentions

What an expression has for its value, its steps or its failure depends on the variables that it
mentions, and on nothing else that a calculator keeps. The arrangement of its tokens brings in no
names, and each token looks at the variable of its own name only. So two assignments that mention
neither the name of the other may be made in either order.
-/

namespace Reckoner

open Token

/-- The arrangement of a row of tokens has no names but those of the row. -/
theorem Rpn.identifier_mem_of_arrange {tokens output : List Token} {name : String}
    (h : arrange tokens = .ok output) (hname : .identifier name ∈ output) :
    .identifier name ∈ tokens :=
  mem_of_mem_readings (.inr rfl) ((arrange_perm h).mem_iff.mp hname)

/-- Both variables give each name among the tokens the same value, or both give it none. -/
def AgreeOn (tokens : List Token) (bindings other : Bindings) : Prop :=
  ∀ name, .identifier name ∈ tokens → bindings.get? name = other.get? name

section

variable {bindings other : Bindings} {tokens : List Token}

/-- Tokens whose names have the same values are traced alike. -/
theorem Evaluation.traceFrom_congr (h : AgreeOn tokens bindings other) (stack : List Float) :
    traceFrom bindings stack tokens = traceFrom other stack tokens := by
  induction tokens generalizing stack with
  | nil => rfl
  | cons token tokens ih =>
    have htoken : Instruction.ofToken bindings token = Instruction.ofToken other token :=
      ofToken_congr fun name hname => h name (hname ▸ List.mem_cons_self)
    have hrest : AgreeOn tokens bindings other :=
      fun name hname => h name (List.mem_cons_of_mem token hname)
    rw [traceFrom, traceFrom, htoken]
    simp only [ih hrest]

/-- Tokens whose names have the same values have the same value and the same steps. -/
theorem evaluateWithSteps_congr (h : AgreeOn tokens bindings other) :
    evaluateWithSteps bindings tokens = evaluateWithSteps other tokens := by
  rw [evaluateWithSteps, evaluateWithSteps, Evaluation.traceFrom_congr h]

end

namespace Calculator

section

variable {calculator other : Calculator} {text : String} {action : Action}

/-- Calculators that agree on the names of an expression explain it alike. -/
theorem explain_congr (h : AgreeOn (expressionTokens text) calculator.bindings other.bindings) :
    (calculator.explain text).map Prod.fst = (other.explain text).map Prod.fst := by
  unfold explain
  cases hprepare : prepare text with
  | error failure => rfl
  | ok prepared =>
    obtain ⟨rpn, harrange, rfl⟩ := prepare_eq_ok_iff.mp hprepare
    have hagree : AgreeOn rpn calculator.bindings other.bindings :=
      fun name hname => h name (Rpn.identifier_mem_of_arrange harrange hname)
    change ((evaluateWithSteps calculator.bindings rpn).bind _).map Prod.fst =
      ((evaluateWithSteps other.bindings rpn).bind _).map Prod.fst
    rw [evaluateWithSteps_congr hagree]
    cases evaluateWithSteps other.bindings rpn <;> rfl

/-- What a calculator answers to an expression is told by its explanation. -/
theorem perform_congr (h : (calculator.explain text).map Prod.fst = (other.explain text).map Prod.fst)
    (haction : action ∈ [.evaluate text, .explain text]) :
    (calculator.perform action).1 = (other.perform action).1 := by
  have hvalue (calculator : Calculator) : (calculator.perform (.evaluate text)).1 =
      .value (((calculator.explain text).map Prod.fst).map Explanation.value) := by
    rw [perform, ← map_explain]
    cases calculator.explain text <;> rfl
  have hexplanation (calculator : Calculator) : (calculator.perform (.explain text)).1 =
      .explanation ((calculator.explain text).map Prod.fst) := by
    rw [perform]
    cases calculator.explain text <;> rfl
  rcases List.mem_pair.mp haction with rfl | rfl
  · rw [hvalue, hvalue, h]
  · rw [hexplanation, hexplanation, h]

/-- Calculators that agree on the names of an expression give the same answer to it. -/
theorem answer_congr (h : AgreeOn (expressionTokens text) calculator.bindings other.bindings)
    (haction : action ∈ [.evaluate text, .explain text]) :
    (calculator.perform action).1 = (other.perform action).1 :=
  perform_congr (explain_congr h) haction

/-- An action that assigns sets its name. -/
theorem perform_of_assignment {name : String} {value : Float}
    (haction : action ∈ [.evaluate text, .explain text])
    (h : assignment? action (calculator.perform action).1 = some (name, value)) :
    (calculator.perform action).2.bindings = calculator.bindings.set name value := by
  have hreset : action.isReset = false := by
    rcases List.mem_pair.mp haction with rfl | rfl <;> rfl
  rw [perform_bindings calculator hreset, h]
  rfl

/-- An assignment that an expression does not mention makes no difference to its answer. -/
theorem answer_of_assignment {assigning : Action} {source name : String} {value : Float}
    (hassigning : assigning ∈ [.evaluate source, .explain source])
    (h : assignment? assigning (calculator.perform assigning).1 = some (name, value))
    (hname : .identifier name ∉ expressionTokens text)
    (haction : action ∈ [.evaluate text, .explain text]) :
    ((calculator.perform assigning).2.perform action).1 = (calculator.perform action).1 := by
  refine answer_congr (fun other hother => ?_) haction
  have hne : other ≠ name := by
    rintro rfl
    exact hname hother
  rw [perform_of_assignment hassigning h, Bindings.get?_set, if_neg hne]

end

/-- What is answered to an expression depends on the variables that it mentions only. So of two
assignments to different names, neither of which mentions the name of the other, each is answered
alike in either order, and the variables have the same values behind both. -/
theorem answers_by_mentioned :
    (∀ (calculator other : Calculator) text,
      AgreeOn (expressionTokens text) calculator.bindings other.bindings →
      ∀ action ∈ [Action.evaluate text, .explain text],
        (calculator.perform action).1 = (other.perform action).1) ∧
    ∀ (calculator : Calculator) text text' name name' value value',
      ∀ first ∈ [Action.evaluate text, .explain text],
      ∀ second ∈ [Action.evaluate text', .explain text'],
        assignment? first (calculator.perform first).1 = some (name, value) →
        assignment? second ((calculator.follow [first]).perform second).1 = some (name', value') →
        name ≠ name' → .identifier name' ∉ expressionTokens text →
        .identifier name ∉ expressionTokens text' →
        (calculator.perform second).1 = ((calculator.follow [first]).perform second).1 ∧
        ((calculator.follow [second]).perform first).1 = (calculator.perform first).1 ∧
        ∀ other, (calculator.follow [second, first]).bindings.get? other =
          (calculator.follow [first, second]).bindings.get? other := by
  refine ⟨fun calculator other text h action haction => answer_congr h haction, ?_⟩
  intro calculator text text' name name' value value' first hfirst second hsecond hassigns hassigns'
    hne hmentions hmentions'
  change assignment? second ((calculator.perform first).2.perform second).1 = _ at hassigns'
  -- in the other order both answers stay, and so do the assignments
  have hearly : (calculator.perform second).1 = ((calculator.perform first).2.perform second).1 :=
    (answer_of_assignment hfirst hassigns hmentions' hsecond).symm
  have hassigned : assignment? second (calculator.perform second).1 = some (name', value') := by
    rw [hearly]
    exact hassigns'
  have hlate : ((calculator.perform second).2.perform first).1 = (calculator.perform first).1 :=
    answer_of_assignment hsecond hassigned hmentions hfirst
  have hassigned' : assignment? first ((calculator.perform second).2.perform first).1 =
      some (name, value) := by
    rw [hlate, hassigns]
  refine ⟨hearly, hlate, fun other => ?_⟩
  change ((calculator.perform second).2.perform first).2.bindings.get? other =
    ((calculator.perform first).2.perform second).2.bindings.get? other
  rw [perform_of_assignment hfirst hassigned', perform_of_assignment hsecond hassigned,
    perform_of_assignment hsecond hassigns', perform_of_assignment hfirst hassigns]
  simp only [Bindings.get?_set]
  by_cases hname : other = name
  · have hother : other ≠ name' := hname ▸ hne
    rw [if_pos hname, if_neg hother, if_pos hname]
  · rw [if_neg hname, if_neg hname]

/-- The half of a variable is not affected by another one. The half and the negative get their names
in either order, explained or not. -/
theorem answers_by_mentioned_half :
    (perform ⟨⟨[("a", 1), ("z", 3)]⟩⟩ (.evaluate "x = z / 2")).1 =
      (perform ⟨⟨[("z", 3)]⟩⟩ (.evaluate "x = z / 2")).1 ∧
    (follow ⟨⟨[("z", 3)]⟩⟩ [.explain "y = -z", .evaluate "x = z / 2"]).bindings.get? "x" =
      (follow ⟨⟨[("z", 3)]⟩⟩ [.evaluate "x = z / 2", .explain "y = -z"]).bindings.get? "x" := by
  have hagree : AgreeOn (expressionTokens "x = z / 2") ⟨[("a", 1), ("z", 3)]⟩ ⟨[("z", 3)]⟩ := by
    have htokens : expressionTokens "x = z / 2" =
        [.identifier "z", .operator "/", .number "2"] := by
      decide +kernel
    intro name hname
    rw [htokens, List.mem_cons] at hname
    rcases hname with hname | hname
    · cases hname
      rfl
    · exact absurd hname (by simp [Token.identifier, Token.operator, Token.number])
  have hfirst : assignment? (.evaluate "x = z / 2")
      (perform ⟨⟨[("z", 3)]⟩⟩ (.evaluate "x = z / 2")).1 = some ("x", 1.5) := by
    decide +kernel
  have hsecond : assignment? (.explain "y = -z")
      ((follow ⟨⟨[("z", 3)]⟩⟩ [.evaluate "x = z / 2"]).perform (.explain "y = -z")).1 =
        some ("y", -3) := by
    decide +kernel
  have hmentions : .identifier "y" ∉ expressionTokens "x = z / 2" := by decide +kernel
  have hmentions' : .identifier "x" ∉ expressionTokens "y = -z" := by decide +kernel
  obtain ⟨hanswers, horder⟩ := answers_by_mentioned
  obtain ⟨-, -, hbindings⟩ := horder ⟨⟨[("z", 3)]⟩⟩ "x = z / 2" "y = -z" "x" "y" 1.5
    (-3) _ List.mem_cons_self _ (List.mem_cons_of_mem _ List.mem_cons_self) hfirst hsecond
    (by decide) hmentions hmentions'
  exact ⟨hanswers _ _ _ hagree _ List.mem_cons_self, hbindings "x"⟩

end Calculator

end Reckoner
