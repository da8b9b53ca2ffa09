import Reckoner.Proofs.CalculatorRun

/-!
# Explanations

An explanation succeeds where the evaluation does, with the same value and the same variables
behind it, and fails as the evaluation fails. It tells of each operator, each variable and each
function of the expression once, in the order of the stack machine, and of nothing else. The step
it tells last has the value of the expression; only a number or a constant alone has no step.
-/

namespace Reckoner

/-- Whether an explanation tells of a token: of an operator, and of a name that stands for a
variable or a function. -/
def isTold (bindings : Bindings) (token : Token) : Bool :=
  match token.kind with
  | .operator => true
  | .identifier =>
    (bindings.get? token.text).isSome ||
      (constant? token.text).isNone && (MathFunction.find? token.text).isSome
  | _ => false

/-- The steps that tell of a token: what it stands for, on what operands, and with what result. -/
inductive Tells (bindings : Bindings) (token : Token) : Step → Prop where
  /-- A variable has its value. -/
  | recalled {value : Float} (kind : token.kind = .identifier)
      (bound : bindings.get? token.text = some value) :
      Tells bindings token (.recalled token.text value)
  /-- A function has its value on the argument. -/
  | called {f : MathFunction} {argument result : Float} (kind : token.kind = .identifier)
      (free : bindings.get? token.text = none) (plain : constant? token.text = none)
      (known : MathFunction.find? token.text = some f) (value : f.apply argument = .ok result) :
      Tells bindings token (.called f argument result)
  /-- An operator has its value on the operand. -/
  | unary {operation : UnaryOperation} (kind : token.kind = .operator)
      (known : (Operator.find? token.text).map Operator.operation = some (.unary operation))
      (operand : Float) : Tells bindings token (.unary operation operand (operation.apply operand))
  /-- An operator has its value on both operands. -/
  | binary {operation : BinaryOperation} {left right result : Float}
      (kind : token.kind = .operator) (known : Operator.binary? token.text = some operation)
      (value : operation.apply token.text left right = .ok result) :
      Tells bindings token (.binary token.text left right result)

variable {bindings : Bindings}

/-- The tokens that put down a value untold are the numbers and the constants that no variable
hides. -/
theorem Meaning.isTold_eq_false_iff {token : Token} {instruction : Instruction}
    (h : Meaning bindings token instruction) :
    isTold bindings token = false ↔ token.kind = .number ∨
      token.kind = .identifier ∧ bindings.get? token.text = none ∧
        (constant? token.text).isSome := by
  cases h <;> simp_all [isTold]

/-- A token that has run is told by a step whose result it leaves on top of the stack, or it is not
told and puts a value on the stack. -/
theorem Meaning.told_or_put {token : Token} {instruction : Instruction} {stack after : List Float}
    (h : Meaning bindings token instruction) (he : instruction.execute stack = .ok after) :
    (isTold bindings token = true ∧ ∃ step rest, instruction.step? stack after = some step ∧
        Tells bindings token step ∧ after = step.result :: rest) ∨
      isTold bindings token = false ∧ instruction.step? stack after = none ∧
        ∃ value, after = value :: stack := by
  cases h with
  | number kind read =>
    cases he
    exact .inr ⟨by simp [isTold, kind], rfl, _, rfl⟩
  | recalled kind bound =>
    cases he
    exact .inl ⟨by simp [isTold, kind, bound], _, stack, rfl, .recalled kind bound, rfl⟩
  | constant kind free known =>
    cases he
    exact .inr ⟨by simp [isTold, kind, free, known], rfl, _, rfl⟩
  | function kind free plain known =>
    cases stack with
    | nil => cases he
    | cons argument stack =>
      obtain ⟨result, hresult, rfl⟩ := Outcome.map_eq_ok_iff.mp he
      exact .inl ⟨by simp [isTold, kind, free, plain, known], _, stack, rfl,
        .called kind free plain known hresult, rfl⟩
  | unary kind known =>
    cases stack with
    | nil => cases he
    | cons operand stack =>
      cases he
      exact .inl ⟨by simp [isTold, kind], _, stack, rfl, .unary kind known operand, rfl⟩
  | binary kind known =>
    rcases stack with _ | ⟨right, _ | ⟨left, stack⟩⟩
    · cases he
    · cases he
    · obtain ⟨result, hresult, rfl⟩ := Outcome.map_eq_ok_iff.mp he
      exact .inl ⟨by simp [isTold, kind], _, stack, rfl, .binary kind known hresult, rfl⟩

namespace Evaluation

/-- A trace ends on the stack that the run leaves, and fails where the run fails. -/
theorem map_fst_traceFrom (bindings : Bindings) (stack : List Float) (tokens : List Token) :
    (traceFrom bindings stack tokens).map Prod.fst = runFrom bindings stack tokens := by
  induction tokens generalizing stack with
  | nil => rfl
  | cons token tokens ih =>
    rw [traceFrom, runFrom]
    cases Instruction.ofToken bindings token with
    | error failure => rfl
    | ok instruction =>
      change ((instruction.execute stack).bind _).map Prod.fst = (instruction.execute stack).bind _
      cases instruction.execute stack with
      | error failure => rfl
      | ok after =>
        change ((traceFrom bindings after tokens).bind _).map Prod.fst = runFrom bindings after tokens
        rw [← ih after]
        cases traceFrom bindings after tokens <;> rfl

/-- A trace succeeds exactly if the first token has an instruction that succeeds, and the trace of
the others does from there; the step of the first token comes first. -/
theorem traceFrom_cons_eq_ok_iff {token : Token} {tokens : List Token} {stack final : List Float}
    {steps : List Step} :
    traceFrom bindings stack (token :: tokens) = .ok (final, steps) ↔
      ∃ instruction after later, Instruction.ofToken bindings token = .ok instruction ∧
        instruction.execute stack = .ok after ∧
        traceFrom bindings after tokens = .ok (final, later) ∧
        (instruction.step? stack after).toList ++ later = steps := by
  change ((Instruction.ofToken bindings token).bind fun instruction =>
    (instruction.execute stack).bind fun after =>
      (traceFrom bindings after tokens).bind fun result =>
        .ok (result.1, (instruction.step? stack after).toList ++ result.2)) = _ ↔ _
  simp only [Outcome.bind_eq_ok_iff, Prod.exists, Except.ok.injEq, Prod.mk.injEq]
  constructor
  · rintro ⟨instruction, hi, after, he, _, later, ht, rfl, hs⟩
    exact ⟨instruction, after, later, hi, he, ht, hs⟩
  · rintro ⟨instruction, after, later, hi, he, ht, hs⟩
    exact ⟨instruction, hi, after, he, final, later, ht, rfl, hs⟩

/-- The last token of a trace has an instruction that succeeds on the stack in front of it; its step
comes last. -/
theorem exists_last_of_traceFrom {tokens : List Token} {last : Token} {stack final : List Float}
    {steps : List Step} (h : traceFrom bindings stack (tokens ++ [last]) = .ok (final, steps)) :
    ∃ instruction between earlier, traceFrom bindings stack tokens = .ok (between, earlier) ∧
      Instruction.ofToken bindings last = .ok instruction ∧
      instruction.execute between = .ok final ∧
      earlier ++ (instruction.step? between final).toList = steps := by
  induction tokens generalizing stack steps with
  | nil =>
    obtain ⟨instruction, after, later, hi, he, ht, rfl⟩ := traceFrom_cons_eq_ok_iff.mp h
    cases ht
    exact ⟨instruction, stack, [], rfl, hi, he, by rw [List.nil_append, List.append_nil]⟩
  | cons token tokens ih =>
    obtain ⟨first, after, later, hi, he, ht, rfl⟩ := traceFrom_cons_eq_ok_iff.mp h
    obtain ⟨instruction, between, earlier, hbetween, hlast, hfinal, rfl⟩ := ih ht
    exact ⟨instruction, between, _,
      traceFrom_cons_eq_ok_iff.mpr ⟨first, after, earlier, hi, he, hbetween, rfl⟩, hlast, hfinal,
      List.append_assoc _ _ _⟩

/-- The steps of a trace tell of the tokens that are told, one by one and in their order. -/
theorem forall₂_tells {tokens : List Token} {stack final : List Float} {steps : List Step}
    (h : traceFrom bindings stack tokens = .ok (final, steps)) :
    List.Forall₂ (Tells bindings) (tokens.filter (isTold bindings)) steps := by
  induction tokens generalizing stack steps with
  | nil =>
    cases h
    exact .nil
  | cons token tokens ih =>
    obtain ⟨instruction, after, later, hi, he, ht, rfl⟩ := traceFrom_cons_eq_ok_iff.mp h
    obtain ⟨htold, step, -, hstep, htells, -⟩ | ⟨huntold, hnone, -⟩ :=
      (ofToken_eq_ok_iff.mp hi).told_or_put he
    · rw [List.filter_cons_of_pos htold, hstep]
      exact .cons htells (ih ht)
    · rw [List.filter_cons_of_neg (by simp [huntold]), hnone]
      exact ih ht

/-- A trace that leaves one value ends with a step that has this value, unless its only token puts
the value down untold. -/
theorem last_of_traceFrom {tokens : List Token} {value : Float} {steps : List Step}
    (h : traceFrom bindings [] tokens = .ok ([value], steps)) :
    (∃ token instruction, tokens = [token] ∧ Meaning bindings token instruction ∧
        isTold bindings token = false) ∨
      ∃ earlier last, steps = earlier ++ [last] ∧ last.result = value := by
  obtain rfl | ⟨front, last, rfl⟩ := tokens.eq_nil_or_concat'
  · cases h
  obtain ⟨instruction, between, earlier, hfront, hi, he, rfl⟩ := exists_last_of_traceFrom h
  have hmeaning := ofToken_eq_ok_iff.mp hi
  obtain ⟨-, step, rest, hstep, -, hresult⟩ | ⟨huntold, -, result, hput⟩ :=
    hmeaning.told_or_put he
  · right
    cases hresult
    exact ⟨earlier, step, by rw [hstep, Option.toList], rfl⟩
  · left
    cases hput
    -- The tokens in front leave nothing, so there are none.
    obtain rfl | ⟨front, first, rfl⟩ := front.eq_nil_or_concat'
    · exact ⟨last, instruction, rfl, hmeaning, huntold⟩
    · obtain ⟨_, _, _, -, hi, he, -⟩ := exists_last_of_traceFrom hfront
      obtain ⟨-, _, _, -, -, hcons⟩ | ⟨-, -, _, hcons⟩ :=
        (ofToken_eq_ok_iff.mp hi).told_or_put he <;> cases hcons

/-- A trace that leaves one value has no steps exactly if its only token is a number or a constant
that no variable hides. -/
theorem steps_eq_nil_iff {tokens : List Token} {value : Float} {steps : List Step}
    (h : traceFrom bindings [] tokens = .ok ([value], steps)) :
    steps = [] ↔ ∃ token, tokens = [token] ∧ (token.kind = .number ∨
      token.kind = .identifier ∧ bindings.get? token.text = none ∧
        (constant? token.text).isSome) := by
  constructor
  · rintro rfl
    obtain ⟨token, instruction, rfl, hmeaning, huntold⟩ | ⟨earlier, last, hlast, -⟩ :=
      last_of_traceFrom h
    · exact ⟨token, rfl, hmeaning.isTold_eq_false_iff.mp huntold⟩
    · exact absurd hlast.symm (List.append_ne_nil_of_right_ne_nil _ (List.cons_ne_nil _ _))
  · rintro ⟨token, rfl, hput⟩
    obtain ⟨instruction, _, _, hi, -⟩ := traceFrom_cons_eq_ok_iff.mp h
    have huntold := (ofToken_eq_ok_iff.mp hi).isTold_eq_false_iff.mpr hput
    have htells := forall₂_tells h
    rw [List.filter_cons_of_neg (by simp [huntold]), List.filter_nil] at htells
    cases htells
    rfl

/-- The last step of a trace that leaves one value has this value. -/
theorem result_of_getLast? {tokens : List Token} {value : Float} {steps : List Step}
    (h : traceFrom bindings [] tokens = .ok ([value], steps)) {last : Step}
    (hlast : last ∈ steps.getLast?) : last.result = value := by
  obtain ⟨token, instruction, rfl, hmeaning, huntold⟩ | ⟨earlier, step, rfl, hresult⟩ :=
    last_of_traceFrom h
  · have hnone : steps = [] :=
      (steps_eq_nil_iff h).mpr ⟨token, rfl, hmeaning.isTold_eq_false_iff.mp huntold⟩
    rw [hnone] at hlast
    cases hlast
  · rw [List.getLast?_append_of_ne_nil _ (List.cons_ne_nil _ _)] at hlast
    cases hlast
    exact hresult

end Evaluation

/-- The value of an evaluation with steps is the value without them, and so is the failure. -/
theorem map_fst_evaluateWithSteps (bindings : Bindings) (rpn : List Token) :
    (evaluateWithSteps bindings rpn).map Prod.fst = evaluate bindings rpn := by
  unfold evaluateWithSteps evaluate
  rw [← Evaluation.map_fst_traceFrom]
  cases Evaluation.traceFrom bindings [] rpn with
  | error failure => rfl
  | ok result =>
    change ((Evaluation.onlyValue result.1).bind _).map Prod.fst = Evaluation.onlyValue result.1
    cases Evaluation.onlyValue result.1 <;> rfl

/-- An evaluation has the value and the steps of a trace that leaves this value alone. -/
theorem evaluateWithSteps_eq_ok_iff {rpn : List Token} {value : Float} {steps : List Step} :
    evaluateWithSteps bindings rpn = .ok (value, steps) ↔
      Evaluation.traceFrom bindings [] rpn = .ok ([value], steps) := by
  change ((Evaluation.traceFrom bindings [] rpn).bind fun result =>
    (Evaluation.onlyValue result.1).bind fun value => .ok (value, result.2)) = _ ↔ _
  simp only [Outcome.bind_eq_ok_iff, Evaluation.onlyValue_eq_ok_iff, Prod.exists, Except.ok.injEq,
    Prod.mk.injEq]
  constructor
  · rintro ⟨_, _, ht, _, rfl, rfl, rfl⟩
    exact ht
  · exact fun ht => ⟨_, _, ht, _, rfl, rfl, rfl⟩

namespace Calculator

/-- The value of an explanation and the calculator behind it are those of the evaluation, and so is
the failure. -/
theorem map_explain (calculator : Calculator) (text : String) :
    (calculator.explain text).map (fun (explanation, after) => (explanation.value, after)) =
      calculator.evaluate text := by
  unfold explain evaluate
  cases prepare text with
  | error failure => rfl
  | ok prepared =>
    change ((evaluateWithSteps calculator.bindings prepared.rpn).bind _).map _ =
      (Reckoner.evaluate calculator.bindings prepared.rpn).bind _
    rw [← map_fst_evaluateWithSteps]
    cases evaluateWithSteps calculator.bindings prepared.rpn <;> rfl

/-- An explanation fails exactly as the evaluation does. -/
theorem explain_eq_error_iff {calculator : Calculator} {text : String} {failure : Failure} :
    calculator.explain text = .error failure ↔ calculator.evaluate text = .error failure := by
  rw [← map_explain, Outcome.map_eq_error_iff]

/-- An evaluation and an explanation of a text fail alike and leave the calculator as it was, or
have the same value and leave the same calculator, with the value assigned to the name that the
explanation tells. Then the steps tell of the operators, the variables and the functions, one by
one and in their order; there is none exactly if the expression is a number or a constant that no
variable hides, and else the last one ends with the value. -/
theorem explain_agrees (calculator : Calculator) (text : String) :
    (∃ failure,
      calculator.perform (.evaluate text) = (.value (.error failure), calculator) ∧
      calculator.perform (.explain text) = (.explanation (.error failure), calculator)) ∨
    ∃ explanation after,
      calculator.perform (.evaluate text) = (.value (.ok explanation.value), after) ∧
      calculator.perform (.explain text) = (.explanation (.ok explanation), after) ∧
      after = calculator.commit explanation.assigned explanation.value ∧
      explanation.assigned = targetOf text ∧
      Rpn.arrange (expressionTokens text) = .ok explanation.rpn ∧
      List.Forall₂ (Tells calculator.bindings)
        (explanation.rpn.filter (isTold calculator.bindings)) explanation.steps ∧
      (explanation.steps = [] ↔ ∃ token, explanation.rpn = [token] ∧ (token.kind = .number ∨
        token.kind = .identifier ∧ calculator.bindings.get? token.text = none ∧
          (constant? token.text).isSome)) ∧
      ∀ last ∈ explanation.steps.getLast?,
        last.text = last.subject ++ " = " ++ Number.brief explanation.value := by
  have hmap := map_explain calculator text
  cases hexplain : calculator.explain text with
  | error failure =>
    rw [hexplain] at hmap
    left
    refine ⟨failure, ?_, ?_⟩
    · rw [perform, ← hmap, Except.map]
    · rw [perform, hexplain]
  | ok result =>
    obtain ⟨explanation, after⟩ := result
    rw [hexplain] at hmap
    right
    obtain ⟨rpn, value, steps, harrange, hsteps, rfl, rfl⟩ := explain_eq_ok_iff.mp hexplain
    have htrace := evaluateWithSteps_eq_ok_iff.mp hsteps
    refine ⟨⟨text, value, rpn, steps, targetOf text⟩, _, ?_, ?_, rfl, rfl, harrange,
      Evaluation.forall₂_tells htrace, Evaluation.steps_eq_nil_iff htrace, ?_⟩
    · rw [perform, ← hmap, Except.map]
    · rw [perform, hexplain]
    · intro last hlast
      rw [Step.text, Evaluation.result_of_getLast? htrace hlast]

/-- A sum, its sign and a product are told as they are applied; numbers are not. -/
example : (fresh.explain "-(2 + 3) * 2").toOption.map (fun result => result.1.steps.map Step.text) =
    some ["2 + 3 = 5", "-(5) = -5", "-5 * 2 = -10"] := by
  decide +kernel

end Calculator

end Reckoner
