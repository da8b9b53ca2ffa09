import Reckoner.Proofs.PostOrder
import Reckoner.Proofs.RpnTree

/-!
# Rows in parentheses

A row of tokens that can be arranged by itself is arranged the same way between parentheses, in
front of any tokens and over any stack on whose top no name waits. And the run over its
arrangement, if it leaves one value, puts that value on any stack. So a row with a value may stand
in parentheses wherever an operand may.
-/

namespace Reckoner.Rpn

section

variable {waiting moved after : List Token} {previous previous' next next' : Option Token}
  {token : Token}

/-- A test that fails at an opening parenthesis looks no further down than that. -/
theorem takeWhile_above (p : Token → Bool) (h : p .opening = false) (above below : List Token) :
    (above ++ .opening :: below).takeWhile p = above.takeWhile p ∧
      (above ++ .opening :: below).dropWhile p = above.dropWhile p ++ .opening :: below := by
  induction above with
  | nil => simp [h]
  | cons top above ih => cases hp : p top <;> simp [hp, ih]

/-- A token is read by the place of the one before it, and a name also by whether a parenthesis
opens behind it. -/
theorem step_congr (hp : isFrontPosition previous = isFrontPosition previous')
    (hn : token.kind = .identifier → next.any isOpening = next'.any isOpening) :
    step waiting previous token next = step waiting previous' token next' := by
  unfold step
  split
  next => rfl
  next hk => rw [hn hk]
  next =>
    have hread : readOperator previous token = readOperator previous' token := by
      rw [readOperator, readOperator, hp]
    rw [hread]
  next => rfl
  next => rfl

/-- A group is closed the same way above another opening parenthesis. -/
theorem closeGroup_above (h : closeGroup waiting = .ok (moved, after)) (below : List Token) :
    closeGroup (waiting ++ .opening :: below) = .ok (moved, after ++ .opening :: below) := by
  obtain ⟨htake, hdrop⟩ := takeWhile_above (!isOpening ·) rfl waiting below
  unfold closeGroup at h ⊢
  rw [htake, hdrop]
  cases hrest : waiting.dropWhile (!isOpening ·) with
  | nil =>
    rw [hrest] at h
    cases h
  | cons bracket rest =>
    rw [hrest] at h
    cases rest with
    | nil =>
      cases h
      rfl
    | cons caller rest =>
      by_cases hcaller : caller.kind = .identifier
      · simp only [hcaller, beq_self_eq_true, if_true] at h
        cases h
        simp [hcaller]
      · simp only [beq_iff_eq, hcaller, if_false] at h
        cases h
        simp [hcaller]

/-- A token is read the same way above another opening parenthesis. -/
theorem step_above (h : step waiting previous token next = .ok (moved, after))
    (below : List Token) :
    step (waiting ++ .opening :: below) previous token next =
      .ok (moved, after ++ .opening :: below) := by
  unfold step at h ⊢
  split at h
  next hk =>
    cases h
    rfl
  next hk =>
    split at h
    next hn =>
      cases h
      rw [if_pos hn, List.cons_append]
    next hn =>
      cases h
      rw [if_neg hn]
  next hk =>
    cases h
    obtain ⟨htake, hdrop⟩ :=
      takeWhile_above (yields (readOperator previous token).text) rfl waiting below
    simp only [htake, hdrop, List.cons_append]
  next hk =>
    cases h
    rfl
  next hk => exact closeGroup_above h below

/-- What can be arranged over a stack comes out the same way above an opening parenthesis. The
closing one ends it, and moves out what is called by then. -/
theorem arrangeFrom_above {tokens output below called under : List Token}
    (h : arrangeFrom waiting previous tokens = .ok output)
    (hp : isFrontPosition previous = isFrontPosition previous')
    (hclose : ∀ inside : List Token, (∀ t ∈ inside, isOpening t = false) →
      closeGroup (inside ++ .opening :: below) = .ok (inside ++ called, under))
    (rest : List Token) :
    arrangeFrom (waiting ++ .opening :: below) previous' (tokens ++ .closing :: rest) =
      (arrangeFrom under (some .closing) rest).map ((output ++ called) ++ ·) := by
  induction tokens generalizing waiting previous previous' output with
  | nil =>
    rw [arrangeFrom, drain] at h
    split at h
    next => cases h
    next hopen =>
      cases h
      simp only [List.any_eq_true, not_exists, not_and, Bool.not_eq_true] at hopen
      exact arrangeFrom_cons (hclose waiting hopen)
  | cons token tokens ih =>
    obtain ⟨moved, after, output, hs, hr, rfl⟩ := arrangeFrom_cons_eq_ok_iff.mp h
    have hnext : tokens.head?.any isOpening = (tokens ++ .closing :: rest).head?.any isOpening := by
      cases tokens <;> rfl
    have hstep := step_above hs below
    rw [step_congr hp fun _ => hnext] at hstep
    rw [List.cons_append, arrangeFrom_cons hstep, ih hr rfl, map_append_map,
      List.append_assoc moved]

/-- A row that can be arranged comes out of parentheses as its arrangement, and then what its
closing parenthesis moves out. -/
theorem arrangeFrom_parentheses {tokens output called under : List Token}
    (h : arrange tokens = .ok output)
    (hclose : ∀ inside : List Token, (∀ t ∈ inside, isOpening t = false) →
      closeGroup (inside ++ .opening :: waiting) = .ok (inside ++ called, under))
    (rest : List Token) :
    arrangeFrom waiting previous (.opening :: (tokens ++ .closing :: rest)) =
      (arrangeFrom under (some .closing) rest).map ((output ++ called) ++ ·) := by
  have hopening : arrangeFrom waiting previous (.opening :: (tokens ++ .closing :: rest)) =
      (arrangeFrom (.opening :: waiting) (some .opening) (tokens ++ .closing :: rest)).map
        ([] ++ ·) := arrangeFrom_cons rfl
  have hfront : isFrontPosition none = isFrontPosition (some .opening) := rfl
  have hinside : arrangeFrom ([] ++ .opening :: waiting) (some .opening)
      (tokens ++ .closing :: rest) =
        (arrangeFrom under (some .closing) rest).map ((output ++ called) ++ ·) :=
    arrangeFrom_above h hfront hclose rest
  rw [List.nil_append] at hinside
  rw [hopening, hinside, map_append_map, List.nil_append]

/-- A row that can be arranged comes out of parentheses as its arrangement, over any stack on whose
top no name waits. -/
theorem arrangeFrom_group {tokens output : List Token} (h : arrange tokens = .ok output)
    (hw : ∀ top ∈ waiting.head?, top.kind ≠ .identifier) (rest : List Token) :
    arrangeFrom waiting previous (.opening :: (tokens ++ .closing :: rest)) =
      (arrangeFrom waiting (some .closing) rest).map (output ++ ·) := by
  have hclose : ∀ inside : List Token, (∀ t ∈ inside, isOpening t = false) →
      closeGroup (inside ++ .opening :: waiting) = .ok (inside ++ [], waiting) := by
    intro inside hinside
    rw [closeGroup_group hinside hw, List.append_nil]
  rw [arrangeFrom_parentheses h hclose, List.append_nil]

/-- Behind a name it comes out so, too, and then the name. -/
theorem arrangeFrom_call {tokens output : List Token} (h : arrange tokens = .ok output)
    (name : String) (rest : List Token) :
    arrangeFrom waiting previous
        (.identifier name :: .opening :: (tokens ++ .closing :: rest)) =
      (arrangeFrom waiting (some .closing) rest).map ((output ++ [.identifier name]) ++ ·) := by
  have hname : arrangeFrom waiting previous
      (.identifier name :: .opening :: (tokens ++ .closing :: rest)) =
        (arrangeFrom (.identifier name :: waiting) (some (.identifier name))
          (.opening :: (tokens ++ .closing :: rest))).map ([] ++ ·) := arrangeFrom_cons rfl
  rw [hname, arrangeFrom_parentheses h (fun inside => closeGroup_call name waiting),
    map_append_map, List.nil_append]

end

end Reckoner.Rpn

namespace Reckoner.Evaluation

/-- A row with a value puts that value on any stack. -/
theorem runFrom_of_evaluate {bindings : Bindings} {rpn : List Token} {value : Float}
    (h : evaluate bindings rpn = .ok value) (stack : List Float) :
    runFrom bindings stack rpn = .ok (value :: stack) := by
  have hwrites := Rpn.Tree.Writes.empty.runFrom (evaluate_eq_ok_iff.mp h)
  rw [List.nil_append] at hwrites
  obtain _ | @⟨_, _, _, tree, _ | _, top⟩ := hwrites
  exact Rpn.Tree.runFrom_postOrder top stack

end Reckoner.Evaluation
