import Reckoner.Proofs.StackRun
import Reckoner.Rpn.Tree

/-!
# Rows in reverse Polish notation and their trees

A row of tokens has a value exactly if it is the post-order of a tree with that value, and then of
one tree only. In one direction the run over the post-order of a tree puts its value down. In the
other one every stack that a run reaches holds the values of trees whose post-orders, the deepest
first, make up the tokens behind the run.
-/

namespace Reckoner.Rpn.Tree

variable {bindings : Bindings} {token : Token}

/-- A token is a leaf exactly if its instruction puts down a value. -/
theorem leafValue?_eq_some_iff {value : Float} :
    leafValue? bindings token = some value ↔
      Instruction.ofToken bindings token = .ok (.literal value) ∨
        Instruction.ofToken bindings token = .ok (.recall token.text value) := by
  rw [ofToken_eq_ok_iff, ofToken_eq_ok_iff]
  constructor
  · intro h
    unfold leafValue? at h
    split at h
    next hk => exact .inl (.number hk h)
    next hk =>
      cases hb : bindings.get? token.text with
      | some bound =>
        rw [hb] at h
        cases h
        exact .inr (.recalled hk hb)
      | none =>
        rw [hb] at h
        exact .inl (.constant hk hb h)
    next => cases h
  · rintro (h | h)
    · cases h with
      | number kind read => simp [leafValue?, kind, read]
      | constant kind free known => simp [leafValue?, kind, free, known]
    · cases h with
      | recalled kind bound => simp [leafValue?, kind, bound]

/-- A token has a value on one operand exactly if its instruction is a call or an operation on one
operand with that value. -/
theorem oneValue?_eq_some_iff {a value : Float} :
    oneValue? bindings token a = some value ↔
      (∃ f, Instruction.ofToken bindings token = .ok (.call f) ∧ f.apply a = .ok value) ∨
        ∃ operation, Instruction.ofToken bindings token = .ok (.unary token.text operation) ∧
          operation.apply a = value := by
  simp only [ofToken_eq_ok_iff]
  constructor
  · intro h
    unfold oneValue? at h
    split at h
    next hk =>
      right
      split at h
      next ht =>
        exact ⟨.negate, .unary hk (Operator.find?_unary_iff.mpr (.inl ⟨ht, rfl⟩)), Option.some.inj h⟩
      next =>
        split at h
        next ht =>
          exact ⟨.keep, .unary hk (Operator.find?_unary_iff.mpr (.inr (.inl ⟨ht, rfl⟩))),
            Option.some.inj h⟩
        next =>
          split at h
          next ht =>
            exact ⟨.not, .unary hk (Operator.find?_unary_iff.mpr (.inr (.inr ⟨ht, rfl⟩))),
              Option.some.inj h⟩
          next => cases h
    next hk =>
      left
      split at h
      next hfree hplain =>
        unfold applyFunction at h
        split at h
        next f hf =>
          refine ⟨f, .function hk hfree hplain hf, ?_⟩
          cases ha : f.apply a with
          | error failure => rw [ha] at h; cases h
          | ok result => rw [ha] at h; exact congrArg Except.ok (Option.some.inj h)
        next => cases h
      next => cases h
    next => cases h
  · rintro (⟨f, h, hf⟩ | ⟨operation, h, rfl⟩)
    · cases h with
      | function kind free plain known =>
        simp [oneValue?, kind, free, plain, applyFunction, known, hf, Except.toOption]
    · cases h with
      | unary kind known =>
        obtain ⟨ht, rfl⟩ | ⟨ht, rfl⟩ | ⟨ht, rfl⟩ := Operator.find?_unary_iff.mp known <;>
          simp [oneValue?, kind, ht, UnaryOperation.apply]

/-- A token has a value on two operands exactly if its instruction is an operation on two operands
with that value. -/
theorem twoValue?_eq_some_iff (bindings : Bindings) {a b value : Float} :
    twoValue? token a b = some value ↔
      ∃ operation, Instruction.ofToken bindings token = .ok (.binary token.text operation) ∧
        operation.apply token.text a b = .ok value := by
  simp only [ofToken_eq_ok_iff]
  constructor
  · intro h
    unfold twoValue? applyOperator at h
    split at h
    next hk =>
      split at h
      next operation ho =>
        refine ⟨operation, .binary hk ho, ?_⟩
        cases ha : operation.apply token.text a b with
        | error failure => rw [ha] at h; cases h
        | ok result => rw [ha] at h; exact congrArg Except.ok (Option.some.inj h)
      next => cases h
    next => cases h
  · rintro ⟨operation, h, ha⟩
    cases h with
    | binary kind known => simp [twoValue?, applyOperator, kind, known, ha, Except.toOption]

/-- The run over the post-order of a tree puts down the value of the tree. -/
theorem runFrom_postOrder {tree : Tree} {value : Float} (h : tree.value? bindings = some value)
    (stack : List Float) :
    Evaluation.runFrom bindings stack tree.postOrder = .ok (value :: stack) := by
  induction tree generalizing value stack with
  | leaf token =>
    rcases leafValue?_eq_some_iff.mp h with hi | hi <;>
      exact Evaluation.runFrom_singleton hi stack
  | one token operand ih =>
    obtain ⟨a, ha, h⟩ := Option.bind_eq_some_iff.mp h
    rw [postOrder, Evaluation.runFrom_append, ih ha]
    change Evaluation.runFrom bindings (a :: stack) [token] = _
    rcases oneValue?_eq_some_iff.mp h with ⟨f, hi, hf⟩ | ⟨operation, hi, rfl⟩
    · rw [Evaluation.runFrom_singleton hi, Instruction.execute, hf]
      rfl
    · exact Evaluation.runFrom_singleton hi _
  | two token left right ihl ihr =>
    obtain ⟨a, ha, h⟩ := Option.bind_eq_some_iff.mp h
    obtain ⟨b, hb, h⟩ := Option.bind_eq_some_iff.mp h
    rw [postOrder, Evaluation.runFrom_append, Evaluation.runFrom_append, ihl ha]
    change (Evaluation.runFrom bindings (a :: stack) right.postOrder).bind _ = _
    rw [ihr hb]
    change Evaluation.runFrom bindings (b :: a :: stack) [token] = _
    obtain ⟨operation, hi, ho⟩ := (twoValue?_eq_some_iff bindings).mp h
    rw [Evaluation.runFrom_singleton hi, Instruction.execute, ho]
    rfl

/-- The values on a stack, the deepest first, are those of trees whose post-orders make up a row of
tokens. -/
inductive Writes (bindings : Bindings) : List Token → List Float → Prop where
  /-- No tokens leave the stack empty. -/
  | empty : Writes bindings [] []
  /-- A tree behind the others puts its value on top. -/
  | push {tokens : List Token} {stack : List Float} {value : Float} (tree : Tree)
      (below : Writes bindings tokens stack) (top : tree.value? bindings = some value) :
      Writes bindings (tokens ++ tree.postOrder) (value :: stack)

/-- One more token makes a leaf, or a root over the latest trees. -/
theorem Writes.execute {tokens : List Token} {stack after : List Float} {instruction : Instruction}
    (h : Writes bindings tokens stack) (hi : Instruction.ofToken bindings token = .ok instruction)
    (hrun : instruction.execute stack = .ok after) : Writes bindings (tokens ++ [token]) after := by
  cases ofToken_eq_ok_iff.mp hi with
  | number kind read =>
    cases hrun
    exact .push (.leaf token) h (leafValue?_eq_some_iff.mpr (.inl hi))
  | recalled kind bound =>
    cases hrun
    exact .push (.leaf token) h (leafValue?_eq_some_iff.mpr (.inr hi))
  | constant kind free known =>
    cases hrun
    exact .push (.leaf token) h (leafValue?_eq_some_iff.mpr (.inl hi))
  | @function f kind free plain known =>
    cases h with
    | empty => cases hrun
    | @push tokens stack a operand below top =>
      obtain ⟨value, hf, rfl⟩ := Outcome.map_eq_ok_iff.mp hrun
      rw [List.append_assoc]
      refine .push (.one token operand) below ?_
      rw [value?, top]
      exact oneValue?_eq_some_iff.mpr (.inl ⟨f, hi, hf⟩)
  | @unary operation kind known =>
    cases h with
    | empty => cases hrun
    | @push tokens stack a operand below top =>
      cases hrun
      rw [List.append_assoc]
      refine .push (.one token operand) below ?_
      rw [value?, top]
      exact oneValue?_eq_some_iff.mpr (.inr ⟨operation, hi, rfl⟩)
  | @binary operation kind known =>
    rcases h with _ | @⟨_, _, b, right, _ | @⟨tokens, stack, a, left, below, hleft⟩, hright⟩
    · cases hrun
    · cases hrun
    · obtain ⟨value, ho, rfl⟩ := Outcome.map_eq_ok_iff.mp hrun
      rw [List.append_assoc, List.append_assoc, ← List.append_assoc left.postOrder]
      refine .push (.two token left right) below ?_
      rw [value?, hleft, hright]
      exact (twoValue?_eq_some_iff bindings).mpr ⟨operation, hi, ho⟩

/-- A run goes on building trees. -/
theorem Writes.runFrom {read tokens : List Token} {stack after : List Float}
    (h : Writes bindings read stack)
    (hrun : Evaluation.runFrom bindings stack tokens = .ok after) :
    Writes bindings (read ++ tokens) after := by
  induction tokens generalizing read stack with
  | nil =>
    cases hrun
    rwa [List.append_nil]
  | cons token tokens ih =>
    obtain ⟨instruction, between, hi, he, hrun⟩ := Evaluation.runFrom_cons_eq_ok_iff.mp hrun
    rw [List.append_cons]
    exact ih (h.execute hi he) hrun

/-- The token at the root of a tree. -/
def root : Tree → Token
  | .leaf token => token
  | .one token _ => token
  | .two token _ _ => token

/-- The number of the operands of a root. -/
def branches : Tree → Nat
  | .leaf _ => 0
  | .one _ _ => 1
  | .two _ _ _ => 2

/-- The root stands last. -/
theorem exists_postOrder_eq (tree : Tree) : ∃ tokens, tree.postOrder = tokens ++ [tree.root] := by
  cases tree with
  | leaf token => exact ⟨[], rfl⟩
  | one token operand => exact ⟨operand.postOrder, rfl⟩
  | two token left right => exact ⟨left.postOrder ++ right.postOrder, rfl⟩

/-- The root of a tree that has a value takes as many values as it has operands. -/
theorem root_operands {tree : Tree} (h : (tree.value? bindings).isSome) :
    ∃ instruction, Instruction.ofToken bindings tree.root = .ok instruction ∧
      instruction.operands = tree.branches := by
  obtain ⟨value, h⟩ := Option.isSome_iff_exists.mp h
  cases tree with
  | leaf token =>
    rcases leafValue?_eq_some_iff.mp h with hi | hi <;> exact ⟨_, hi, rfl⟩
  | one token operand =>
    obtain ⟨a, -, h⟩ := Option.bind_eq_some_iff.mp h
    rcases oneValue?_eq_some_iff.mp h with ⟨_, hi, -⟩ | ⟨_, hi, -⟩ <;> exact ⟨_, hi, rfl⟩
  | two token left right =>
    obtain ⟨a, -, h⟩ := Option.bind_eq_some_iff.mp h
    obtain ⟨b, -, h⟩ := Option.bind_eq_some_iff.mp h
    obtain ⟨_, hi, -⟩ := (twoValue?_eq_some_iff bindings).mp h
    exact ⟨_, hi, rfl⟩

/-- Trees with values whose post-orders end a row alike have the same root over as many operands. -/
theorem same_root {tree tree' : Tree} {before before' : List Token}
    (hv : (tree.value? bindings).isSome) (hv' : (tree'.value? bindings).isSome)
    (h : before ++ tree.postOrder = before' ++ tree'.postOrder) :
    tree.root = tree'.root ∧ tree.branches = tree'.branches := by
  obtain ⟨tokens, ht⟩ := exists_postOrder_eq tree
  obtain ⟨tokens', ht'⟩ := exists_postOrder_eq tree'
  rw [ht, ht', ← List.append_assoc, ← List.append_assoc] at h
  have hroot := List.singleton_inj.mp (List.append_inj' h rfl).2
  obtain ⟨instruction, hi, hn⟩ := root_operands hv
  obtain ⟨instruction', hi', hn'⟩ := root_operands hv'
  rw [hroot, hi'] at hi
  cases hi
  exact ⟨hroot, hn.symm.trans hn'⟩

/-- A tree with two operands has a value only if both of these have one. -/
theorem isSome_of_two {left right : Tree} (h : ((two token left right).value? bindings).isSome) :
    (left.value? bindings).isSome ∧ (right.value? bindings).isSome := by
  obtain ⟨value, h⟩ := Option.isSome_iff_exists.mp h
  obtain ⟨a, ha, h⟩ := Option.bind_eq_some_iff.mp h
  obtain ⟨b, hb, -⟩ := Option.bind_eq_some_iff.mp h
  exact ⟨Option.isSome_of_eq_some ha, Option.isSome_of_eq_some hb⟩

/-- A row ends in the post-order of one tree with a value only. -/
theorem postOrder_append_inj {tree tree' : Tree} {before before' : List Token}
    (hv : (tree.value? bindings).isSome) (hv' : (tree'.value? bindings).isSome)
    (h : before ++ tree.postOrder = before' ++ tree'.postOrder) :
    before = before' ∧ tree = tree' := by
  induction tree generalizing tree' before before' with
  | leaf token =>
    obtain ⟨hroot, hbranches⟩ := same_root hv hv' h
    cases tree' with
    | leaf token' =>
      cases hroot
      exact ⟨List.append_cancel_right h, rfl⟩
    | one => cases hbranches
    | two => cases hbranches
  | one token operand ih =>
    obtain ⟨hroot, hbranches⟩ := same_root hv hv' h
    cases tree' with
    | leaf => cases hbranches
    | one token' operand' =>
      cases hroot
      rw [postOrder, postOrder, ← List.append_assoc, ← List.append_assoc] at h
      obtain ⟨hbefore, rfl⟩ := ih (Option.isSome_of_isSome_bind hv)
        (Option.isSome_of_isSome_bind hv') (List.append_cancel_right h)
      exact ⟨hbefore, rfl⟩
    | two => cases hbranches
  | two token left right ihl ihr =>
    obtain ⟨hroot, hbranches⟩ := same_root hv hv' h
    cases tree' with
    | leaf => cases hbranches
    | one => cases hbranches
    | two token' left' right' =>
      cases hroot
      simp only [postOrder, ← List.append_assoc] at h
      obtain ⟨hl, hr⟩ := isSome_of_two hv
      obtain ⟨hl', hr'⟩ := isSome_of_two hv'
      obtain ⟨hleft, rfl⟩ := ihr hr hr' (List.append_cancel_right h)
      obtain ⟨hbefore, rfl⟩ := ihl hl hl' hleft
      exact ⟨hbefore, rfl⟩

/-- Tokens have a value exactly if they are the post-order of a tree with that value, and only one
tree with a value has that post-order. -/
theorem evaluate_eq_ok_iff_tree (bindings : Bindings) (rpn : List Token) (value : Float) :
    (evaluate bindings rpn = .ok value ↔
      ∃ tree : Tree, tree.postOrder = rpn ∧ tree.value? bindings = some value) ∧
    ∀ tree tree' : Tree, tree.postOrder = rpn → tree'.postOrder = rpn →
      (tree.value? bindings).isSome → (tree'.value? bindings).isSome → tree = tree' := by
  refine ⟨⟨?_, ?_⟩, ?_⟩
  · intro h
    have hw := Writes.empty.runFrom (evaluate_eq_ok_iff.mp h)
    rw [List.nil_append] at hw
    obtain _ | @⟨_, _, _, tree, _ | _, top⟩ := hw
    exact ⟨tree, rfl, top⟩
  · rintro ⟨tree, rfl, h⟩
    exact evaluate_eq_ok_iff.mpr (runFrom_postOrder h [])
  · intro tree tree' h h' hv hv'
    have hsame : [] ++ tree.postOrder = [] ++ tree'.postOrder := by rw [h, h']
    exact (postOrder_append_inj hv hv' hsame).2

end Reckoner.Rpn.Tree
