import Reckoner.Evaluation.Depth
import Reckoner.Proofs.RunFailure

/-!
# Counting the values on the stack

A run and the scan that only counts values go through the tokens in step. The scan fails where a
token stands for nothing or finds too few operands, and the run fails there for the same reason,
unless an operation had no value before. So the values decide nothing but the numeric failures and
the result, and variables with the same names have the same outcome up to these.
-/

namespace Reckoner

/-- Whether a name is one of the variables. -/
def Bindings.isBound (bindings : Bindings) (name : String) : Bool :=
  (bindings.get? name).isSome

/-- A function is found by its name. -/
theorem MathFunction.name_of_find? {name : String} {f : MathFunction} (h : find? name = some f) :
    f.name = name := by
  have hname := List.find?_some h
  exact eq_of_beq hname

namespace Operator

/-- The scan knows the operators with one operand by their symbols. -/
theorem mem_unary_iff {symbol : String} :
    symbol ∈ ["neg", "pos", "!"] ↔
      ∃ operation, (find? symbol).map Operator.operation = some (.unary operation) := by
  simp only [find?_unary_iff, List.mem_cons, List.not_mem_nil, or_false]
  constructor
  · rintro (rfl | rfl | rfl)
    · exact ⟨.negate, .inl ⟨rfl, rfl⟩⟩
    · exact ⟨.keep, .inr (.inl ⟨rfl, rfl⟩)⟩
    · exact ⟨.not, .inr (.inr ⟨rfl, rfl⟩)⟩
  · rintro ⟨_, ⟨rfl, -⟩ | ⟨rfl, -⟩ | ⟨rfl, -⟩⟩
    · exact .inl rfl
    · exact .inr (.inl rfl)
    · exact .inr (.inr rfl)

end Operator

namespace Depth

/-- Two rows of tokens are scanned one after the other. -/
theorem scan_append (isVariable : String → Bool) (depth : Nat) (first second : List Token) :
    scan isVariable depth (first ++ second) =
      (scan isVariable depth first).bind fun between => scan isVariable between second := by
  induction first generalizing depth with
  | nil => rfl
  | cons token tokens ih =>
    rw [List.cons_append, scan, scan]
    cases step isVariable depth token with
    | error failure => rfl
    | ok between => exact ih between

/-- The scan of one token is its step. -/
theorem scan_singleton (isVariable : String → Bool) (depth : Nat) (token : Token) :
    scan isVariable depth [token] = step isVariable depth token := by
  rw [scan]
  cases step isVariable depth token <;> rfl

/-- What needs no values adds one. -/
theorem spend_zero (label : String) (depth : Nat) : spend label 0 depth = .ok (depth + 1) := by
  rw [spend, if_neg (Nat.not_lt_zero depth), Nat.sub_zero]

/-- What finds the values it needs leaves one in their place. -/
theorem spend_of_le {needed depth : Nat} (label : String) (h : needed ≤ depth) :
    spend label needed depth = .ok (depth - needed + 1) := by
  rw [spend, if_neg (Nat.not_lt.mpr h)]

section

variable {bindings : Bindings} {token : Token}

/-- A token that stands for nothing ends the scan as it ends a run. -/
theorem step_of_meaningless {failure : Failure} (h : Meaningless bindings token failure)
    (depth : Nat) : step bindings.isBound depth token = .error failure := by
  cases h with
  | number kind unread => simp [step, kind, unread]
  | name kind free plain unknown => simp [step, kind, Bindings.isBound, free, plain, unknown]
  | sign kind unknown =>
    have hunary : token.text ∉ ["neg", "pos", "!"] := by
      intro hmem
      obtain ⟨operation, known⟩ := Operator.mem_unary_iff.mp hmem
      rw [unknown] at known
      cases known
    simp [step, kind, hunary, Operator.binary?, unknown]
  | parenthesis kind => rcases kind with kind | kind <;> simp [step, kind]

/-- A token with an instruction spends the operands of the instruction. -/
theorem step_of_meaning {instruction : Instruction} (h : Meaning bindings token instruction)
    (depth : Nat) :
    step bindings.isBound depth token = spend token.text instruction.operands depth := by
  cases h with
  | number kind read => simp [step, kind, read, Instruction.operands, spend_zero]
  | recalled kind bound =>
    simp [step, kind, Bindings.isBound, bound, Instruction.operands, spend_zero]
  | constant kind free known =>
    simp [step, kind, known, Instruction.operands, spend_zero]
  | function kind free plain known =>
    simp [step, kind, Bindings.isBound, free, plain, known, Instruction.operands]
  | unary kind known =>
    have hunary : token.text ∈ ["neg", "pos", "!"] := Operator.mem_unary_iff.mpr ⟨_, known⟩
    simp [step, kind, hunary, Instruction.operands]
  | binary kind known =>
    have hbinary : token.text ∉ ["neg", "pos", "!"] := by
      intro hmem
      obtain ⟨operation, unary⟩ := Operator.mem_unary_iff.mp hmem
      rw [Operator.binary?_eq_some_iff.mp known] at unary
      cases unary
    simp [step, kind, hbinary, known, Instruction.operands]

end

end Depth

/-- An instruction leaves as many values as the scan counts, or fails as the scan does, unless its
operands are there and have no result. -/
theorem Meaning.map_length_execute {bindings : Bindings} {token : Token}
    {instruction : Instruction} (h : Meaning bindings token instruction) (stack : List Float) :
    (instruction.execute stack).map List.length =
        Depth.spend token.text instruction.operands stack.length ∨
      instruction.operands ≤ stack.length ∧
        ∃ failure, instruction.execute stack = .error failure ∧ failure.IsNumeric := by
  cases h with
  | number => exact .inl (Depth.spend_zero _ _).symm
  | recalled => exact .inl (Depth.spend_zero _ _).symm
  | constant => exact .inl (Depth.spend_zero _ _).symm
  | @function f kind free plain known =>
    cases stack with
    | nil =>
      have hname : f.name = token.text := MathFunction.name_of_find? known
      rw [Instruction.execute, hname]
      exact .inl rfl
    | cons x stack =>
      cases hvalue : f.apply x with
      | ok value =>
        left
        simp [Instruction.execute, hvalue, Except.map, Instruction.operands, Depth.spend]
      | error failure =>
        refine .inr ⟨Nat.succ_le_succ (Nat.zero_le _), failure, ?_, isNumeric_of_checked hvalue⟩
        simp [Instruction.execute, hvalue, Except.map]
  | unary =>
    left
    cases stack with
    | nil => rfl
    | cons a stack => simp [Instruction.execute, Except.map, Instruction.operands, Depth.spend]
  | @binary operation =>
    rcases stack with _ | ⟨b, _ | ⟨a, stack⟩⟩
    · exact .inl rfl
    · exact .inl rfl
    · cases hvalue : operation.apply token.text a b with
      | ok value =>
        left
        simp [Instruction.execute, hvalue, Except.map, Instruction.operands, Depth.spend]
      | error failure =>
        refine .inr ⟨by simp [Instruction.operands], failure, ?_, isNumeric_of_binary hvalue⟩
        simp [Instruction.execute, hvalue, Except.map]

namespace Evaluation

/-- A run fails at a token that the scan passes, because an operation has no value there. -/
inductive FailsInValue (bindings : Bindings) (stack : List Float) (tokens : List Token)
    (failure : Failure) : Prop where
  /-- The operands of the token are there, and their values decide. -/
  | intro (before behind : List Token) (token : Token) (depth : Nat)
      (split : tokens = before ++ token :: behind)
      (fails : FailsAt bindings stack before token failure) (numeric : failure.IsNumeric)
      (passes : Depth.scan bindings.isBound stack.length (before ++ [token]) = .ok depth)

variable {bindings : Bindings} {stack : List Float}

/-- A run over a token keeps step with the scan, unless the token has operands without a result. -/
theorem map_length_token (bindings : Bindings) (stack : List Float) (token : Token) :
    (runFrom bindings stack [token]).map List.length =
        Depth.step bindings.isBound stack.length token ∨
      ∃ failure depth, runFrom bindings stack [token] = .error failure ∧ failure.IsNumeric ∧
        Depth.step bindings.isBound stack.length token = .ok depth := by
  cases hi : Instruction.ofToken bindings token with
  | error failure =>
    left
    rw [runFrom_singleton_error hi, Depth.step_of_meaningless (ofToken_eq_error_iff.mp hi)]
    rfl
  | ok instruction =>
    have hmeaning := ofToken_eq_ok_iff.mp hi
    rw [runFrom_singleton hi, Depth.step_of_meaning hmeaning]
    obtain hstep | ⟨hle, failure, hfails, hnumeric⟩ := hmeaning.map_length_execute stack
    · exact .inl hstep
    · exact .inr ⟨failure, _, hfails, hnumeric, Depth.spend_of_le token.text hle⟩

/-- The token may be the first one. -/
theorem FailsInValue.here {token : Token} {tokens : List Token} {failure : Failure} {depth : Nat}
    (fails : runFrom bindings stack [token] = .error failure) (numeric : failure.IsNumeric)
    (passes : Depth.step bindings.isBound stack.length token = .ok depth) :
    FailsInValue bindings stack (token :: tokens) failure := by
  refine .intro [] tokens token depth rfl ⟨stack, rfl, fails⟩ numeric ?_
  rw [List.nil_append, Depth.scan_singleton, passes]

/-- Or it may stand behind one that the run and the scan pass in step. -/
theorem FailsInValue.cons {token : Token} {tokens : List Token} {failure : Failure}
    {after : List Float} (h : FailsInValue bindings after tokens failure)
    (reaches : runFrom bindings stack [token] = .ok after)
    (passes : Depth.step bindings.isBound stack.length token = .ok after.length) :
    FailsInValue bindings stack (token :: tokens) failure := by
  obtain ⟨before, behind, last, depth, rfl, hfails, hnumeric, hpasses⟩ := h
  refine .intro (token :: before) behind last depth rfl (hfails.cons reaches) hnumeric ?_
  rw [List.cons_append, Depth.scan, passes]
  exact hpasses

/-- A run keeps step with the scan as long as operations have values. -/
theorem map_length_runFrom (bindings : Bindings) (stack : List Float) (tokens : List Token) :
    (runFrom bindings stack tokens).map List.length =
        Depth.scan bindings.isBound stack.length tokens ∨
      ∃ failure, runFrom bindings stack tokens = .error failure ∧
        FailsInValue bindings stack tokens failure := by
  induction tokens generalizing stack with
  | nil => exact .inl rfl
  | cons token tokens ih =>
    rw [runFrom_cons, Depth.scan]
    obtain hstep | ⟨failure, depth, hfails, hnumeric, hpasses⟩ :=
      map_length_token bindings stack token
    · rw [← hstep]
      cases htoken : runFrom bindings stack [token] with
      | error failure => exact .inl rfl
      | ok after =>
        rw [htoken] at hstep
        obtain hrest | ⟨failure, hfails, hinside⟩ := ih after
        · exact .inl hrest
        · exact .inr ⟨failure, hfails, hinside.cons htoken hstep.symm⟩
    · right
      rw [hfails]
      exact ⟨failure, rfl, .here hfails hnumeric hpasses⟩

end Evaluation

namespace Depth

/-- What the scan of a whole row says: its failure, or that not one value is left. -/
def verdict (isVariable : String → Bool) (tokens : List Token) : Except Failure Unit :=
  match scan isVariable 0 tokens with
  | .error failure => .error failure
  | .ok count => if count = 1 then .ok () else .error (.leftOver count)

end Depth

/-- Tokens have a value exactly if the scan lets them, and fail as it says otherwise, unless an
operation that the scan passes has no value. -/
theorem map_evaluate (bindings : Bindings) (rpn : List Token) :
    (evaluate bindings rpn).map (fun _ => ()) = Depth.verdict bindings.isBound rpn ∨
      ∃ failure, evaluate bindings rpn = .error failure ∧
        Evaluation.FailsInValue bindings [] rpn failure := by
  rw [evaluate_eq_bind]
  obtain hstep | ⟨failure, hfails, hinside⟩ := Evaluation.map_length_runFrom bindings [] rpn
  · left
    rw [List.length_nil] at hstep
    rw [Depth.verdict, ← hstep]
    cases Evaluation.runFrom bindings [] rpn with
    | error failure => rfl
    | ok stack =>
      change (Evaluation.onlyValue stack).map _ =
        if stack.length = 1 then .ok () else .error (.leftOver stack.length)
      split
      next hone =>
        obtain ⟨value, rfl⟩ := List.length_eq_one_iff.mp hone
        rfl
      next hmany => rw [Evaluation.onlyValue_of_length_ne hmany]; rfl
  · right
    rw [hfails]
    exact ⟨failure, rfl, hinside⟩

/-- What comes of an evaluation is decided by counting values, up to numeric failures at tokens that
the scan passes: where it stops the evaluation fails for the same reason, and at its end the count
is left. So variables with the same names have the same outcome up to these failures and the
value. -/
theorem evaluate_follows_depth (bindings : Bindings) (rpn : List Token) :
    ((∃ failure, evaluate bindings rpn = .error failure ∧
        Evaluation.FailsInValue bindings [] rpn failure) ∨
      match Depth.scan bindings.isBound 0 rpn with
      | .error failure => evaluate bindings rpn = .error failure
      | .ok count =>
        if count = 1 then ∃ value, evaluate bindings rpn = .ok value
        else evaluate bindings rpn = .error (.leftOver count)) ∧
    ∀ other : Bindings, (∀ name, other.isBound name = bindings.isBound name) →
      (∃ failure, evaluate bindings rpn = .error failure ∧
          Evaluation.FailsInValue bindings [] rpn failure) ∨
        (∃ failure, evaluate other rpn = .error failure ∧
          Evaluation.FailsInValue other [] rpn failure) ∨
        (evaluate other rpn).map (fun _ => ()) = (evaluate bindings rpn).map (fun _ => ()) := by
  constructor
  · obtain hverdict | hfails := map_evaluate bindings rpn
    · right
      unfold Depth.verdict at hverdict
      cases hscan : Depth.scan bindings.isBound 0 rpn with
      | error failure =>
        rw [hscan] at hverdict
        exact Outcome.map_eq_error_iff.mp hverdict
      | ok count =>
        simp only [hscan] at hverdict ⊢
        split at hverdict
        next hone =>
          obtain ⟨value, hvalue, -⟩ := Outcome.map_eq_ok_iff.mp hverdict
          rw [if_pos hone]
          exact ⟨value, hvalue⟩
        next hmany =>
          rw [if_neg hmany]
          exact Outcome.map_eq_error_iff.mp hverdict
    · exact .inl hfails
  · intro other hsame
    have hbound : other.isBound = bindings.isBound := funext hsame
    obtain hverdict | hfails := map_evaluate bindings rpn
    · obtain hother | hfails := map_evaluate other rpn
      · rw [hbound, ← hverdict] at hother
        exact .inr (.inr hother)
      · exact .inr (.inl hfails)
    · exact .inl hfails

/-- A quotient that has a value for one value of its variable only: for that one the sign behind it
lacks an operand, for the other the run does not come to the sign. -/
theorem evaluate_follows_depth_quotient :
    (∀ name, Bindings.isBound ⟨[("x", 2)]⟩ name = Bindings.isBound ⟨[("x", 0)]⟩ name) ∧
      evaluate ⟨[("x", 2)]⟩ [.number "1", .identifier "x", .operator "/", .operator "+"] =
        .error (.missingOperands "+" 2 1) ∧
      ∃ failure,
        evaluate ⟨[("x", 0)]⟩ [.number "1", .identifier "x", .operator "/", .operator "+"] =
          .error failure ∧
        Evaluation.FailsInValue ⟨[("x", 0)]⟩ []
          [.number "1", .identifier "x", .operator "/", .operator "+"] failure := by
  have hsame : ∀ name,
      Bindings.isBound ⟨[("x", 2)]⟩ name = Bindings.isBound ⟨[("x", 0)]⟩ name := by
    intro name
    cases hx : name == "x" <;> simp [Bindings.isBound, Bindings.get?, List.lookup_cons, hx]
  have hsum : evaluate ⟨[("x", 2)]⟩
      [.number "1", .identifier "x", .operator "/", .operator "+"] =
        .error (.missingOperands "+" 2 1) := rfl
  have hquotient : evaluate ⟨[("x", 0)]⟩
      [.number "1", .identifier "x", .operator "/", .operator "+"] = .error .divisionByZero := rfl
  refine ⟨hsame, hsum, ?_⟩
  obtain hfails | ⟨failure, hfails, hinside⟩ | hequal :=
    (evaluate_follows_depth ⟨[("x", 0)]⟩
      [.number "1", .identifier "x", .operator "/", .operator "+"]).2 ⟨[("x", 2)]⟩ hsame
  · exact hfails
  · rw [hsum] at hfails
    cases hfails
    obtain ⟨_, _, _, _, _, _, hnumeric, _⟩ := hinside
    cases hnumeric
  · rw [hsum, hquotient] at hequal
    cases hequal

end Reckoner
