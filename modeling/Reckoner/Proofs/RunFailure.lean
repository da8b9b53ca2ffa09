import Reckoner.Proofs.StackRun

/-!
# How a run fails

A run fails at one of its tokens. Either the token stands for nothing, and its kind tells how, or
its instruction fails: it finds too few operands, or its operation has no value on them. None of
these is a failure of the parentheses, and only a parenthesis is an unexpected token.
-/

namespace Reckoner

/-- The failure of a token that stands for nothing. -/
inductive Meaningless (bindings : Bindings) (token : Token) : Failure → Prop where
  /-- A number literal that writes no number. -/
  | number (kind : token.kind = .number) (unread : Number.read? token.text = none) :
      Meaningless bindings token (.invalidNumber token.text)
  /-- A name of no variable, no constant and no function. -/
  | name (kind : token.kind = .identifier) (free : bindings.get? token.text = none)
      (plain : constant? token.text = none) (unknown : MathFunction.find? token.text = none) :
      Meaningless bindings token (.unknownIdentifier token.text)
  /-- A sign of no operator. -/
  | sign (kind : token.kind = .operator) (unknown : Operator.find? token.text = none) :
      Meaningless bindings token (.unknownOperator token.text)
  /-- A parenthesis. -/
  | parenthesis (kind : token.kind = .opening ∨ token.kind = .closing) :
      Meaningless bindings token (.unexpectedToken token.text)

/-- A token has no instruction exactly if it stands for nothing. -/
theorem ofToken_eq_error_iff {bindings : Bindings} {token : Token} {failure : Failure} :
    Instruction.ofToken bindings token = .error failure ↔ Meaningless bindings token failure := by
  constructor
  · intro h
    obtain ⟨kind, text⟩ := token
    cases kind with
    | number =>
      simp only [Instruction.ofToken] at h
      split at h
      next => cases h
      next hread => cases h; exact .number rfl hread
    | operator =>
      simp only [Instruction.ofToken, Instruction.ofSymbol] at h
      split at h
      next => split at h <;> cases h
      next hfind => cases h; exact .sign rfl hfind
    | identifier =>
      simp only [Instruction.ofToken, Instruction.ofName] at h
      split at h
      next => cases h
      next hfree =>
        split at h
        next => cases h
        next hplain =>
          split at h
          next => cases h
          next hfind => cases h; exact .name rfl hfree hplain hfind
    | opening => cases h; exact .parenthesis (.inl rfl)
    | closing => cases h; exact .parenthesis (.inr rfl)
  · intro h
    cases h with
    | number kind unread => simp [Instruction.ofToken, kind, unread]
    | name kind free plain unknown =>
      simp [Instruction.ofToken, Instruction.ofName, kind, free, plain, unknown]
    | sign kind unknown => simp [Instruction.ofToken, Instruction.ofSymbol, kind, unknown]
    | parenthesis kind => rcases kind with kind | kind <;> simp [Instruction.ofToken, kind]

/-- The failures that the values of the operands decide. -/
inductive Failure.IsNumeric : Failure → Prop where
  /-- A quotient with divisor zero. -/
  | quotient : IsNumeric .divisionByZero
  /-- A remainder with divisor zero. -/
  | remainder : IsNumeric .moduloByZero
  /-- Operands on which an operation has no value. -/
  | domain (label : String) (operands : List Float) : IsNumeric (.mathDomain label operands)

/-- A checked result fails for want of a value only. -/
theorem isNumeric_of_checked {label : String} {operands : List Float} {result : Float}
    {failure : Failure} (h : checked label operands result = .error failure) :
    failure.IsNumeric := by
  unfold checked at h
  split at h
  next => cases h; exact .domain label operands
  next => cases h

/-- An operation on two operands fails for numeric reasons only. -/
theorem isNumeric_of_binary {operation : BinaryOperation} {symbol : String} {a b : Float}
    {failure : Failure} (h : operation.apply symbol a b = .error failure) :
    failure.IsNumeric := by
  cases operation with
  | divide =>
    simp only [BinaryOperation.apply] at h
    split at h <;> cases h
    exact .quotient
  | remainder =>
    simp only [BinaryOperation.apply] at h
    split at h
    next => cases h; exact .remainder
    next => exact isNumeric_of_checked h
  | power => exact isNumeric_of_checked h
  | _ => cases h

/-- An instruction fails because the stack is too low for it, or for numeric reasons. -/
theorem Instruction.execute_eq_error {instruction : Instruction} {stack : List Float}
    {failure : Failure} (h : instruction.execute stack = .error failure) :
    (∃ label, failure = .missingOperands label instruction.operands stack.length ∧
        stack.length < instruction.operands) ∨ failure.IsNumeric := by
  rcases instruction with value | ⟨name, value⟩ | f | ⟨symbol, operation⟩ | ⟨symbol, operation⟩
  · cases h
  · cases h
  · cases stack with
    | nil => cases h; exact .inl ⟨_, rfl, Nat.one_pos⟩
    | cons x stack => exact .inr (isNumeric_of_checked (Outcome.map_eq_error_iff.mp h))
  · cases stack with
    | nil => cases h; exact .inl ⟨_, rfl, Nat.one_pos⟩
    | cons a stack => cases h
  · rcases stack with _ | ⟨b, _ | ⟨a, stack⟩⟩
    · cases h; exact .inl ⟨_, rfl, Nat.two_pos⟩
    · cases h; exact .inl ⟨_, rfl, Nat.one_lt_two⟩
    · exact .inr (isNumeric_of_binary (Outcome.map_eq_error_iff.mp h))

namespace Evaluation

variable {bindings : Bindings} {stack : List Float} {tokens : List Token} {failure : Failure}

/-- A run comes to a token behind some others, and fails there. -/
def FailsAt (bindings : Bindings) (stack : List Float) (before : List Token) (token : Token)
    (failure : Failure) : Prop :=
  ∃ held, runFrom bindings stack before = .ok held ∧ runFrom bindings held [token] = .error failure

/-- A run may come to a token behind one more. -/
theorem FailsAt.cons {first token : Token} {before : List Token} {after : List Float}
    (h : FailsAt bindings after before token failure)
    (reaches : runFrom bindings stack [first] = .ok after) :
    FailsAt bindings stack (first :: before) token failure := by
  obtain ⟨held, hreaches, hfails⟩ := h
  refine ⟨held, ?_, hfails⟩
  rw [runFrom_cons, reaches]
  exact hreaches

/-- A run that fails comes to one of its tokens and fails there. -/
theorem exists_failsAt (h : runFrom bindings stack tokens = .error failure) :
    ∃ before token behind, tokens = before ++ token :: behind ∧
      FailsAt bindings stack before token failure := by
  induction tokens generalizing stack with
  | nil => cases h
  | cons first tokens ih =>
    rw [runFrom_cons] at h
    obtain hfirst | ⟨after, hfirst, hrest⟩ := Outcome.bind_eq_error_iff.mp h
    · exact ⟨[], first, tokens, rfl, stack, rfl, hfirst⟩
    · obtain ⟨before, token, behind, rfl, hfails⟩ := ih hrest
      exact ⟨first :: before, token, behind, rfl, hfails.cons hfirst⟩

/-- A run that fails does so at a token that stands for nothing, or whose instruction fails. -/
theorem exists_failing (h : runFrom bindings stack tokens = .error failure) :
    ∃ token ∈ tokens, Instruction.ofToken bindings token = .error failure ∨
      ∃ instruction held, Instruction.ofToken bindings token = .ok instruction ∧
        instruction.execute held = .error failure := by
  obtain ⟨before, token, behind, rfl, held, -, hfails⟩ := exists_failsAt h
  refine ⟨token, List.mem_append_right _ List.mem_cons_self, ?_⟩
  cases hi : Instruction.ofToken bindings token with
  | error reason =>
    rw [runFrom_singleton_error hi] at hfails
    cases hfails
    exact .inl rfl
  | ok instruction =>
    rw [runFrom_singleton hi] at hfails
    exact .inr ⟨instruction, held, rfl, hfails⟩

end Evaluation

/-- What an evaluation of tokens in reverse Polish order fails for. -/
inductive Fails (bindings : Bindings) (rpn : List Token) : Failure → Prop where
  /-- A token stands for nothing. -/
  | meaningless {token : Token} {failure : Failure} (mem : token ∈ rpn)
      (cause : Meaningless bindings token failure) : Fails bindings rpn failure
  /-- The instruction of a token fails. -/
  | execution {token : Token} {instruction : Instruction} {held : List Float} {failure : Failure}
      (mem : token ∈ rpn) (meaning : Meaning bindings token instruction)
      (cause : instruction.execute held = .error failure) : Fails bindings rpn failure
  /-- The values left at the end are not one. -/
  | leftOver (count : Nat) : Fails bindings rpn (.leftOver count)

/-- An evaluation that fails does so for one of these causes. -/
theorem fails_of_evaluate {bindings : Bindings} {rpn : List Token} {failure : Failure}
    (h : evaluate bindings rpn = .error failure) : Fails bindings rpn failure := by
  change (Evaluation.runFrom bindings [] rpn).bind Evaluation.onlyValue = _ at h
  obtain hrun | ⟨stack, -, hleft⟩ := Outcome.bind_eq_error_iff.mp h
  · obtain ⟨token, hmem, hi | ⟨instruction, held, hi, he⟩⟩ := Evaluation.exists_failing hrun
    · exact .meaningless hmem (ofToken_eq_error_iff.mp hi)
    · exact .execution hmem (ofToken_eq_ok_iff.mp hi) he
  · rcases stack with _ | ⟨first, _ | ⟨second, rest⟩⟩ <;> cases hleft <;> exact .leftOver _

/-- Where values are computed no parentheses fail, and only a parenthesis is unexpected. -/
theorem kind_of_evaluate_eq_error {bindings : Bindings} {rpn : List Token} {failure : Failure}
    (h : evaluate bindings rpn = .error failure) :
    failure.kind ≠ .syntaxError ∧ ∀ text, failure = .unexpectedToken text →
      ∃ token ∈ rpn, token.kind = .opening ∨ token.kind = .closing := by
  cases fails_of_evaluate h with
  | meaningless mem cause =>
    cases cause with
    | number => exact ⟨nofun, nofun⟩
    | name => exact ⟨nofun, nofun⟩
    | sign => exact ⟨nofun, nofun⟩
    | parenthesis kind => exact ⟨nofun, fun _ _ => ⟨_, mem, kind⟩⟩
  | execution mem meaning cause =>
    rcases Instruction.execute_eq_error cause with ⟨label, rfl, -⟩ | hnumeric
    · exact ⟨nofun, nofun⟩
    · cases hnumeric <;> exact ⟨nofun, nofun⟩
  | leftOver count => exact ⟨nofun, nofun⟩

end Reckoner
