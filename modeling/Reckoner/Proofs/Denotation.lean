import Reckoner.Calculator
import Reckoner.Grammar.Denotation
import Reckoner.Proofs.PostOrder
import Reckoner.Proofs.StackRun

/-!
# What an expression means to the calculator

The run over the post-order of an expression puts its denotation on the stack, or fails as the
denotation does. This holds where the names have the roles that the expression gives them: what is
called has no value of its own, and what stands for a value is not the name of a function only.
Together with the order in which the tokens come out, the calculator's answer to a line is the
denotation of the expression it writes.
-/

namespace Reckoner.Evaluation

variable {bindings : Bindings}

/-- A sign that binds looser than those in front has the value of its operator between the two
values on top. -/
theorem runFrom_sign_between {sign : String} (h : Operator.precedenceOf sign < 7) (a b : Float)
    (stack : List Float) :
    runFrom bindings (b :: a :: stack) [.operator sign] =
      (applyOperator sign a b).map (· :: stack) := by
  unfold applyOperator
  cases hb : Operator.binary? sign with
  | some operation => exact runFrom_singleton (ofToken_eq_ok_iff.mpr (.binary rfl hb)) _
  | none =>
    apply runFrom_singleton_error
    cases ho : Operator.find? sign with
    | none => simp [Instruction.ofToken, Token.operator, Instruction.ofSymbol, ho]
    | some o =>
      obtain ⟨symbol, precedence, associativity, operation | operation⟩ := o
      · obtain ⟨rfl, -⟩ | ⟨rfl, -⟩ | ⟨rfl, -⟩ := Operator.find?_unary_iff.mp
          (congrArg (Option.map Operator.operation) ho)
        all_goals exact absurd h (by decide)
      · rw [Operator.binary?, ho] at hb
        cases hb

/-- A sign in front has the value of its operator on the value on top. -/
theorem runFrom_sign_front {symbol : String} {operation : UnaryOperation}
    (h : (Operator.find? symbol).map Operator.operation = some (.unary operation)) (a : Float)
    (stack : List Float) :
    runFrom bindings (a :: stack) [.operator symbol] = .ok (operation.apply a :: stack) :=
  runFrom_singleton (ofToken_eq_ok_iff.mpr (.unary rfl h)) _

/-- A name without a value of its own has the value of its function on the value on top. -/
theorem runFrom_callee {callee : String} (hfree : bindings.get? callee = none)
    (hplain : constant? callee = none) (x : Float) (stack : List Float) :
    runFrom bindings (x :: stack) [.identifier callee] =
      (applyFunction callee x).map (· :: stack) := by
  unfold applyFunction
  cases hf : MathFunction.find? callee with
  | some f => exact runFrom_singleton (ofToken_eq_ok_iff.mpr (.function rfl hfree hplain hf)) _
  | none =>
    apply runFrom_singleton_error
    simp [Instruction.ofToken, Token.identifier, Instruction.ofName, hfree, hplain, hf]

/-- A number puts down its value. -/
theorem runFrom_number (text : String) (stack : List Float) :
    runFrom bindings stack [.number text] =
      ((Expression.number text).denote bindings).map (· :: stack) := by
  unfold Expression.denote
  cases hv : Number.read? text with
  | some value =>
    have hi : Instruction.ofToken bindings (.number text) = .ok (.literal value) :=
      ofToken_eq_ok_iff.mpr (.number rfl hv)
    exact runFrom_singleton hi stack
  | none =>
    have hi : Instruction.ofToken bindings (.number text) = .error (.invalidNumber text) := by
      simp only [Instruction.ofToken, Token.number, hv]
    exact runFrom_singleton_error hi stack

/-- A name that is not the name of a function only puts down its value. -/
theorem runFrom_name {word : String}
    (h : (MathFunction.find? word).isSome → (bindings.get? word).isSome) (stack : List Float) :
    runFrom bindings stack [.identifier word] =
      ((Expression.name word).denote bindings).map (· :: stack) := by
  unfold Expression.denote
  cases hb : bindings.get? word with
  | some value => exact runFrom_singleton (ofToken_eq_ok_iff.mpr (.recalled rfl hb)) _
  | none =>
    cases hc : constant? word with
    | some value => exact runFrom_singleton (ofToken_eq_ok_iff.mpr (.constant rfl hb hc)) _
    | none =>
      apply runFrom_singleton_error
      cases hf : MathFunction.find? word with
      | some f => rw [hf, hb] at h; exact absurd (h rfl) Bool.false_ne_true
      | none => simp [Instruction.ofToken, Token.identifier, Instruction.ofName, hb, hc, hf]

/-- The operands of a sign between them are run from left to right. -/
theorem runFrom_between {sign : String} {left right : Expression}
    (h : Operator.precedenceOf sign < 7)
    (hl : ∀ stack, runFrom bindings stack left.postOrder =
      (left.denote bindings).map (· :: stack))
    (hr : ∀ stack, runFrom bindings stack right.postOrder =
      (right.denote bindings).map (· :: stack)) (stack : List Float) :
    runFrom bindings stack (Expression.between sign left right).postOrder =
      ((Expression.between sign left right).denote bindings).map (· :: stack) := by
  rw [Expression.postOrder, runFrom_append, runFrom_append, hl, Expression.denote]
  cases left.denote bindings with
  | error failure => rfl
  | ok a =>
    change (runFrom bindings (a :: stack) right.postOrder).bind _ = _
    rw [hr]
    cases right.denote bindings with
    | error failure => rfl
    | ok b => exact runFrom_sign_between h a b stack

/-- The run over the post-order of an expression puts down its denotation. -/
theorem runFrom_postOrder {loosest level : Int} {tokens : List Token} {e : Expression}
    (h : Grammar.Derives loosest level tokens e)
    (hcallees : ∀ name ∈ e.callees, bindings.get? name = none ∧ constant? name = none)
    (hnames : ∀ name ∈ e.names, (MathFunction.find? name).isSome → (bindings.get? name).isSome)
    (stack : List Float) :
    runFrom bindings stack e.postOrder = (e.denote bindings).map (· :: stack) := by
  induction h generalizing stack with
  | tighter _ _ ih => exact ih hcallees hnames stack
  | leftward known _ _ ihl ihr =>
    simp only [Expression.callees, Expression.names, List.forall_mem_append] at hcallees hnames
    have hlevel := known.level_le
    have hs := known.precedenceOf
    exact runFrom_between (by omega) (ihl hcallees.1 hnames.1) (ihr hcallees.2 hnames.2) stack
  | rightward known _ _ ihl ihr =>
    simp only [Expression.callees, Expression.names, List.forall_mem_append] at hcallees hnames
    have hs := Grammar.precedenceOf_power known
    exact runFrom_between (by omega) (ihl hcallees.1 hnames.1) (ihr hcallees.2 hnames.2) stack
  | @front sign _ e known _ ih =>
    rw [Expression.postOrder, runFrom_append, ih hcallees hnames, Expression.denote]
    cases e.denote bindings with
    | error failure => rfl
    | ok a =>
      change runFrom bindings (a :: stack) [.operator _] = _
      simp only [Grammar.frontSigns, List.mem_cons, List.not_mem_nil, or_false] at known
      obtain rfl | rfl | rfl := known
      · exact runFrom_sign_front (Operator.find?_unary_iff.mpr (.inl ⟨rfl, rfl⟩)) a stack
      · exact runFrom_sign_front (Operator.find?_unary_iff.mpr (.inr (.inl ⟨rfl, rfl⟩))) a stack
      · exact runFrom_sign_front (Operator.find?_unary_iff.mpr (.inr (.inr ⟨rfl, rfl⟩))) a stack
  | number text => exact runFrom_number text stack
  | name word => exact runFrom_name (hnames word (by simp [Expression.names])) stack
  | group _ ih => exact ih hcallees hnames stack
  | @call callee _ e _ ih =>
    simp only [Expression.callees, List.forall_mem_append, List.forall_mem_singleton] at hcallees
    rw [Expression.postOrder, runFrom_append, ih hcallees.1 hnames, Expression.denote]
    cases e.denote bindings with
    | error failure => rfl
    | ok x => exact runFrom_callee hcallees.2.1 hcallees.2.2 x stack

end Reckoner.Evaluation

namespace Reckoner.Calculator

/-- The answer to a line that writes an expression is the denotation of the expression over the
variables, value for value and failure for failure. -/
theorem evaluate_eq_denote (calculator : Calculator) (text : String) {e : Expression}
    (h : Grammar.Derives 0 0 (Statement.ofTokens (Token.ofText text)).body e)
    (hcallees : ∀ name ∈ e.callees,
      calculator.bindings.get? name = none ∧ constant? name = none)
    (hnames : ∀ name ∈ e.names,
      (MathFunction.find? name).isSome → (calculator.bindings.get? name).isSome) :
    (calculator.evaluate text).map Prod.fst = e.denote calculator.bindings := by
  have hrun := Evaluation.runFrom_postOrder h hcallees hnames []
  have harrange := (Rpn.readsAs_postOrder h).arrange
  have hvalue : Reckoner.evaluate calculator.bindings e.postOrder = e.denote calculator.bindings := by
    unfold Reckoner.evaluate
    rw [hrun]
    cases e.denote calculator.bindings <;> rfl
  unfold evaluate prepare
  simp only [harrange]
  change ((Reckoner.evaluate calculator.bindings e.postOrder).bind _).map Prod.fst = _
  rw [hvalue]
  cases e.denote calculator.bindings <;> rfl

/-- An assigned sum of a signed variable and a call has the value of the sum. -/
theorem evaluate_signed_sum :
    (evaluate ⟨⟨[("x", 3)]⟩⟩ "y = -x + abs(2)").map Prod.fst =
      Expression.denote ⟨[("x", 3)]⟩
        (.between "+" (.front "-" (.name "x")) (.call "abs" (.number "2"))) := by
  have htokens : (Statement.ofTokens (Token.ofText "y = -x + abs(2)")).body =
      [.operator "-", .identifier "x"] ++ .operator "+" ::
        (.identifier "abs" :: .opening :: [.number "2"] ++ [.closing]) := by
    decide +kernel
  have hleft : Grammar.Derives 0 4 [.operator "-", .identifier "x"] (.front "-" (.name "x")) :=
    (Grammar.Derives.front (by decide) (.name "x")).loosen (by decide) (by decide)
  have hargument : Grammar.Derives 0 0 [.number "2"] (.number "2") :=
    (Grammar.Derives.number "2").loosen (by decide) (by decide)
  have hright := (Grammar.Derives.call "abs" hargument).loosen
    (by decide : 4 + 1 ≤ (7 : Int)) (by decide)
  have hsign : Grammar.LeftSign 4 "+" := by simp [Grammar.LeftSign]
  have hsum := (Grammar.Derives.leftward hsign hleft hright).loosen
    (by decide : 0 ≤ (4 : Int)) (by decide)
  refine evaluate_eq_denote _ _ (htokens ▸ hsum) ?_ ?_
  · simp [Expression.callees, Bindings.get?, constant?]
  · simp [Expression.names, Bindings.get?]

end Reckoner.Calculator
