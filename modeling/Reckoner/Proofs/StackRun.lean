import Reckoner.Evaluation
import Reckoner.Proofs.Outcome
import Reckoner.Proofs.Precedence

/-!
# Running tokens on a stack

What each token stands for, by its kind and the variables, and how runs compose. A token whose
instruction is known changes the stack as that instruction does; a run over two rows of tokens is
the run over the second one from the stack that the first one leaves.
-/

namespace Reckoner.Operator

/-- The symbols of the operators with one operand. -/
theorem find?_unary_iff {symbol : String} {operation : UnaryOperation} :
    (find? symbol).map Operator.operation = some (.unary operation) ↔
      symbol = "neg" ∧ operation = .negate ∨ symbol = "pos" ∧ operation = .keep ∨
        symbol = "!" ∧ operation = .not := by
  constructor
  · intro h
    have htable : ∀ o ∈ table, ∀ u, o.operation = .unary u →
        o.symbol = "neg" ∧ u = .negate ∨ o.symbol = "pos" ∧ u = .keep ∨
          o.symbol = "!" ∧ u = .not := by
      simp [table]
    obtain ⟨o, ho, hu⟩ := Option.map_eq_some_iff.mp h
    obtain ⟨hm, rfl⟩ := find?_mem ho
    exact htable o hm operation hu
  · rintro (⟨rfl, rfl⟩ | ⟨rfl, rfl⟩ | ⟨rfl, rfl⟩) <;> decide

/-- The operation between operands is that of an operator of the table with two operands. -/
theorem binary?_eq_some_iff {symbol : String} {operation : BinaryOperation} :
    binary? symbol = some operation ↔
      (find? symbol).map Operator.operation = some (.binary operation) := by
  unfold binary?
  rcases find? symbol with _ | ⟨symbol, precedence, associativity, _ | o⟩ <;> simp

end Reckoner.Operator

namespace Reckoner

/-- The instruction that a token stands for. -/
inductive Meaning (bindings : Bindings) (token : Token) : Instruction → Prop where
  /-- A number literal puts down its value. -/
  | number {value : Float} (kind : token.kind = .number)
      (read : Number.read? token.text = some value) : Meaning bindings token (.literal value)
  /-- A variable puts down its value. -/
  | recalled {value : Float} (kind : token.kind = .identifier)
      (bound : bindings.get? token.text = some value) :
      Meaning bindings token (.recall token.text value)
  /-- A constant that no variable hides puts down its value. -/
  | constant {value : Float} (kind : token.kind = .identifier)
      (free : bindings.get? token.text = none) (known : constant? token.text = some value) :
      Meaning bindings token (.literal value)
  /-- A function whose name has no value takes its argument. -/
  | function {f : MathFunction} (kind : token.kind = .identifier)
      (free : bindings.get? token.text = none) (plain : constant? token.text = none)
      (known : MathFunction.find? token.text = some f) : Meaning bindings token (.call f)
  /-- An operator takes its operand. -/
  | unary {operation : UnaryOperation} (kind : token.kind = .operator)
      (known : (Operator.find? token.text).map Operator.operation = some (.unary operation)) :
      Meaning bindings token (.unary token.text operation)
  /-- An operator takes its two operands. -/
  | binary {operation : BinaryOperation} (kind : token.kind = .operator)
      (known : Operator.binary? token.text = some operation) :
      Meaning bindings token (.binary token.text operation)

/-- The instruction of a token is the one it stands for. -/
theorem ofToken_eq_ok_iff {bindings : Bindings} {token : Token} {instruction : Instruction} :
    Instruction.ofToken bindings token = .ok instruction ↔ Meaning bindings token instruction := by
  constructor
  · intro h
    obtain ⟨kind, text⟩ := token
    cases kind with
    | number =>
      simp only [Instruction.ofToken] at h
      split at h
      next value hv => cases h; exact .number rfl hv
      next => cases h
    | operator =>
      simp only [Instruction.ofToken, Instruction.ofSymbol] at h
      split at h
      next o ho =>
        split at h
        next u hu => cases h; exact .unary rfl (by simp [ho, hu])
        next b hb => cases h; exact .binary rfl (Operator.binary?_eq_some_iff.mpr (by simp [ho, hb]))
      next => cases h
    | identifier =>
      simp only [Instruction.ofToken, Instruction.ofName] at h
      split at h
      next value hv => cases h; exact .recalled rfl hv
      next hfree =>
        split at h
        next value hv => cases h; exact .constant rfl hfree hv
        next hplain =>
          split at h
          next f hf => cases h; exact .function rfl hfree hplain hf
          next => cases h
    | opening => cases h
    | closing => cases h
  · intro h
    cases h with
    | number kind read => simp [Instruction.ofToken, kind, read]
    | recalled kind bound => simp [Instruction.ofToken, Instruction.ofName, kind, bound]
    | constant kind free known => simp [Instruction.ofToken, Instruction.ofName, kind, free, known]
    | function kind free plain known =>
      simp [Instruction.ofToken, Instruction.ofName, kind, free, plain, known]
    | unary kind known =>
      obtain ⟨o, ho, hu⟩ := Option.map_eq_some_iff.mp known
      simp [Instruction.ofToken, Instruction.ofSymbol, kind, ho, hu]
    | binary kind known =>
      obtain ⟨o, ho, hb⟩ := Option.map_eq_some_iff.mp (Operator.binary?_eq_some_iff.mp known)
      simp [Instruction.ofToken, Instruction.ofSymbol, kind, ho, hb]

/-- What a token stands for depends on the variables by the value of its name only. -/
theorem ofToken_congr {bindings other : Bindings} {token : Token}
    (h : ∀ name, token = .identifier name → bindings.get? name = other.get? name) :
    Instruction.ofToken bindings token = Instruction.ofToken other token := by
  obtain ⟨kind, text⟩ := token
  cases kind with
  | identifier =>
    have hvalue : bindings.get? text = other.get? text := h text rfl
    change Instruction.ofName bindings text = Instruction.ofName other text
    rw [Instruction.ofName, Instruction.ofName, hvalue]
  | _ => rfl

/-- How many values an instruction takes from the stack. -/
def Instruction.operands : Instruction → Nat
  | .literal _ => 0
  | .recall _ _ => 0
  | .call _ => 1
  | .unary _ _ => 1
  | .binary _ _ => 2

/-- An operator has one operand or two. -/
theorem Meaning.of_operator {bindings : Bindings} {token : Token} {instruction : Instruction}
    (h : Meaning bindings token instruction) (hk : token.kind = .operator) :
    (∃ operation, (Operator.find? token.text).map Operator.operation = some (.unary operation)) ∧
        instruction.operands = 1 ∨
      (Operator.binary? token.text).isSome ∧ instruction.operands = 2 := by
  cases h with
  | unary kind known => exact .inl ⟨⟨_, known⟩, rfl⟩
  | binary kind known => exact .inr ⟨Option.isSome_of_eq_some known, rfl⟩
  | number kind => rw [hk] at kind; cases kind
  | recalled kind => rw [hk] at kind; cases kind
  | constant kind => rw [hk] at kind; cases kind
  | function kind => rw [hk] at kind; cases kind

/-- An instruction that succeeds leaves one value in the place of those it takes. -/
theorem Instruction.execute_length {instruction : Instruction} {stack after : List Float}
    (h : instruction.execute stack = .ok after) :
    after.length + instruction.operands = stack.length + 1 := by
  rcases instruction with value | ⟨name, value⟩ | f | ⟨symbol, operation⟩ | ⟨symbol, operation⟩
  · cases h
    rfl
  · cases h
    rfl
  · cases stack with
    | nil => cases h
    | cons x stack =>
      obtain ⟨value, -, rfl⟩ := Outcome.map_eq_ok_iff.mp h
      rfl
  · cases stack with
    | nil => cases h
    | cons a stack =>
      cases h
      rfl
  · rcases stack with _ | ⟨b, _ | ⟨a, stack⟩⟩
    · cases h
    · cases h
    · obtain ⟨value, -, rfl⟩ := Outcome.map_eq_ok_iff.mp h
      rfl

namespace Evaluation

/-- A run over two rows of tokens is a run over the second one behind a run over the first. -/
theorem runFrom_append (bindings : Bindings) (stack : List Float) (first second : List Token) :
    runFrom bindings stack (first ++ second) =
      (runFrom bindings stack first).bind fun between => runFrom bindings between second := by
  induction first generalizing stack with
  | nil => rfl
  | cons token tokens ih =>
    rw [List.cons_append, runFrom, runFrom]
    cases Instruction.ofToken bindings token with
    | error failure => rfl
    | ok instruction =>
      change (instruction.execute stack).bind _ = ((instruction.execute stack).bind _).bind _
      cases instruction.execute stack with
      | error failure => rfl
      | ok after => exact ih after

/-- A run over some tokens goes on behind a run over the first one. -/
theorem runFrom_cons (bindings : Bindings) (stack : List Float) (token : Token)
    (tokens : List Token) :
    runFrom bindings stack (token :: tokens) =
      (runFrom bindings stack [token]).bind fun between => runFrom bindings between tokens :=
  runFrom_append bindings stack [token] tokens

/-- A run over one token executes its instruction. -/
theorem runFrom_singleton {bindings : Bindings} {token : Token} {instruction : Instruction}
    (h : Instruction.ofToken bindings token = .ok instruction) (stack : List Float) :
    runFrom bindings stack [token] = instruction.execute stack := by
  rw [runFrom, h]
  change (instruction.execute stack).bind _ = _
  cases instruction.execute stack <;> rfl

/-- A run over a token without an instruction fails as the token does. -/
theorem runFrom_singleton_error {bindings : Bindings} {token : Token} {failure : Failure}
    (h : Instruction.ofToken bindings token = .error failure) (stack : List Float) :
    runFrom bindings stack [token] = .error failure := by
  rw [runFrom, h]
  rfl

/-- A run succeeds exactly if the first token has an instruction that succeeds, and the run over the
others does from there. -/
theorem runFrom_cons_eq_ok_iff {bindings : Bindings} {token : Token} {tokens : List Token}
    {stack after : List Float} :
    runFrom bindings stack (token :: tokens) = .ok after ↔
      ∃ instruction between, Instruction.ofToken bindings token = .ok instruction ∧
        instruction.execute stack = .ok between ∧
          runFrom bindings between tokens = .ok after := by
  change ((Instruction.ofToken bindings token).bind fun instruction =>
    (instruction.execute stack).bind fun between => runFrom bindings between tokens) = _ ↔ _
  simp only [Outcome.bind_eq_ok_iff, exists_and_left]

/-- One value is left exactly if the stack holds that value only. -/
theorem onlyValue_eq_ok_iff {stack : List Float} {value : Float} :
    onlyValue stack = .ok value ↔ stack = [value] := by
  rcases stack with _ | ⟨first, _ | ⟨second, rest⟩⟩ <;> simp [onlyValue]

/-- Values that are not one are too few or too many. -/
theorem onlyValue_of_length_ne {stack : List Float} (h : stack.length ≠ 1) :
    onlyValue stack = .error (.leftOver stack.length) := by
  rcases stack with _ | ⟨first, _ | ⟨second, rest⟩⟩
  · rfl
  · exact absurd rfl h
  · rfl

end Evaluation

/-- Tokens are evaluated by a run over the empty stack. -/
theorem evaluate_eq_bind (bindings : Bindings) (rpn : List Token) :
    evaluate bindings rpn = (Evaluation.runFrom bindings [] rpn).bind Evaluation.onlyValue :=
  rfl

/-- Tokens have the value that a run over them leaves alone on the stack. -/
theorem evaluate_eq_ok_iff {bindings : Bindings} {rpn : List Token} {value : Float} :
    evaluate bindings rpn = .ok value ↔ Evaluation.runFrom bindings [] rpn = .ok [value] := by
  change (Evaluation.runFrom bindings [] rpn).bind Evaluation.onlyValue = _ ↔ _
  simp only [Outcome.bind_eq_ok_iff, Evaluation.onlyValue_eq_ok_iff, exists_eq_right]

/-- A token that puts down a value has this value alone. -/
theorem evaluate_literal {bindings : Bindings} {token : Token} {value : Float}
    (h : Meaning bindings token (.literal value)) : evaluate bindings [token] = .ok value := by
  rw [evaluate_eq_ok_iff, Evaluation.runFrom_singleton (ofToken_eq_ok_iff.mpr h)]
  rfl

end Reckoner
