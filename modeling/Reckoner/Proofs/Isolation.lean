import Reckoner.Proofs.SessionRun

/-!
# Sessions do not see each other

The calculator of a live session is the one that a fresh calculator becomes if it is asked only what
the session was asked since it was created. What is asked of other sessions does not reach it; they
can only evict it. A session that was dropped or evicted begins anew.
-/

namespace Reckoner

namespace Calculator

/-- Whether an action only looks at the variables. -/
def Action.looks : Action → Bool
  | .bindings => true
  | .editCopy _ _ => true
  | _ => false

/-- Looking at the variables changes nothing. -/
theorem perform_of_looks (calculator : Calculator) {action : Action} (h : action.looks = true) :
    (calculator.perform action).2 = calculator := by
  cases action with
  | bindings => rfl
  | editCopy name value => rfl
  | evaluate expression => cases h
  | explain expression => cases h
  | reset => cases h

/-- An action that only looks at the variables may be left out. -/
theorem follow_unless_looks (calculator : Calculator) (action : Action) :
    calculator.follow (if action.looks = false then some action else none).toList =
      (calculator.perform action).2 := by
  cases h : action.looks with
  | false => rfl
  | true => exact (perform_of_looks calculator h).symm

end Calculator

namespace Sessions

/-- The session that an action is about. -/
def Action.session : Action → String
  | .acquiring id _ => id
  | .lookingUp id _ => id
  | .drop id => id

/-- What an action asks of the calculator of a session, looks at its variables apart. -/
def Action.asks? (id : String) : Action → Option Calculator.Action
  | .acquiring other own | .lookingUp other own =>
    if other = id then (if own.looks = false then some own else none) else none
  | .drop _ => none

/-- What was asked of the calculator of a session since the session is live. -/
def asked (start : Sessions) (id : String) (actions : List Action) : List Calculator.Action :=
  ((start.trace actions).rtakeWhile fun entry => decide (id ∈ entry.2.sessions.ids)).filterMap
    fun entry => entry.1.asks? id

section

variable {sessions : Sessions} {id other : String} {own : Calculator.Action}
  {gone kept : List (String × Calculator)}

/-- An acquired session has the calculator that has answered. -/
theorem Acquires.find?_self (h : Acquires sessions id own gone kept) :
    (sessions.perform (.acquiring id own)).sessions.find? id =
      some ((sessions.calculatorOf id).perform own).2 := by
  have hkept : ∀ entry ∈ kept, entry.1 ≠ id := fun entry hentry =>
    ne_of_mem_erase (h.split ▸ List.mem_append_right gone hentry)
  rw [find?, h.live, lookup_last hkept]

/-- A session that stays keeps its calculator while another one is acquired. -/
theorem Acquires.find?_other (h : Acquires sessions id own gone kept)
    (hdistinct : sessions.ids.Nodup) (hne : other ≠ id)
    (hlive : other ∈ (sessions.perform (.acquiring id own)).sessions.ids) :
    (sessions.perform (.acquiring id own)).sessions.find? other = sessions.find? other := by
  have hkept : other ∈ kept.map Prod.fst := by
    rw [h.ids_eq, List.mem_append, List.mem_singleton] at hlive
    exact hlive.resolve_right hne
  have hgone : gone.lookup other = none := by
    rw [List.lookup_eq_none_iff]
    intro entry hentry
    exact bne_iff_ne.mpr fun he =>
      h.notMem_gone hdistinct hkept (he ▸ List.mem_map_of_mem hentry)
  have hlast : [(id, ((sessions.calculatorOf id).perform own).2)].lookup other = none := by
    rw [List.lookup_cons, beq_eq_false_iff_ne.mpr hne]
    rfl
  have herase : (sessions.erase id).find? other = sessions.find? other := by
    rw [find?_erase, if_neg hne]
  rw [← herase, find?, find?, h.live, h.split, List.lookup_append, List.lookup_append, hgone, hlast,
    Option.or_none, Option.none_or]

/-- An action on another session leaves the calculator of a session that stays live alone. -/
theorem find?_perform_of_ne (h : sessions.WellFormed) {action : Action} (hne : action.session ≠ id)
    (hlive : id ∈ (sessions.perform action).sessions.ids) :
    (sessions.perform action).sessions.find? id = sessions.find? id := by
  cases action with
  | acquiring other own =>
    obtain ⟨gone, kept, hacquires⟩ := exists_acquires h other own
    exact hacquires.find?_other h.distinct (Ne.symm hne) hlive
  | lookingUp other own =>
    have hid : id ≠ other := Ne.symm hne
    by_cases hother : other ∈ sessions.ids
    · rw [perform_lookingUp hother, find?_put, if_neg hid]
    · rw [perform_lookingUp_missing hother]
  | drop other =>
    have hid : id ≠ other := Ne.symm hne
    rw [find?, perform_drop, ← find?, find?_erase, if_neg hid]

/-- The calculator of a session that is live becomes what the action asks of it. -/
theorem calculatorOf_perform (h : sessions.WellFormed) {action : Action}
    (hlive : id ∈ (sessions.perform action).sessions.ids) :
    (sessions.perform action).sessions.calculatorOf id =
      (sessions.calculatorOf id).follow (action.asks? id).toList := by
  by_cases hself : action.session = id
  · cases action with
    | acquiring other own =>
      obtain rfl : other = id := hself
      obtain ⟨gone, kept, hacquires⟩ := exists_acquires h other own
      rw [calculatorOf, hacquires.find?_self, Action.asks?, if_pos rfl,
        Calculator.follow_unless_looks]
      rfl
    | lookingUp other own =>
      obtain rfl : other = id := hself
      rw [ids_lookingUp] at hlive
      rw [calculatorOf, perform_lookingUp hlive, find?_put, if_pos rfl, find?_of_mem hlive,
        Action.asks?, if_pos rfl, Calculator.follow_unless_looks]
      rfl
    | drop other =>
      obtain rfl : other = id := hself
      rw [ids_drop h.distinct] at hlive
      exact absurd hlive h.distinct.not_mem_erase
  · have hasks : action.asks? id = none := by
      cases action with
      | acquiring other own => exact if_neg hself
      | lookingUp other own => exact if_neg hself
      | drop other => rfl
    rw [calculatorOf, find?_perform_of_ne h hself hlive, hasks]
    rfl

end

section

variable {start : Sessions} {id : String}

/-- One more action adds what it asks of a session that is live then. -/
theorem asked_append_singleton (start : Sessions) (id : String) (actions : List Action)
    (action : Action) :
    asked start id (actions ++ [action]) =
      if id ∈ (start.after (actions ++ [action])).ids then
        asked start id actions ++ (action.asks? id).toList
      else [] := by
  unfold asked
  rw [trace_append_singleton, List.rtakeWhile_concat, after_append_singleton]
  by_cases hlive : id ∈ ((start.after actions).perform action).sessions.ids
  · rw [if_pos hlive, if_pos (decide_eq_true hlive), List.filterMap_append]
    cases h : action.asks? id <;> simp [h]
  · rw [if_neg hlive, if_neg (by simp [hlive])]
    rfl

/-- Nothing was asked of a session that is not live. -/
theorem asked_of_notMem {actions : List Action} (h : id ∉ (start.after actions).ids) :
    asked start id actions = [] := by
  cases actions using List.reverseRecOn with
  | nil => rfl
  | append_singleton actions action => rw [asked_append_singleton, if_neg h]

/-- The calculator of a session, live or not, is the one that a fresh calculator becomes by what was
asked of the session. -/
theorem calculatorOf_after (hstart : start.live = []) (actions : List Action) (id : String) :
    (start.after actions).calculatorOf id = Calculator.fresh.follow (asked start id actions) := by
  induction actions using List.reverseRecOn with
  | nil =>
    change (start.live.lookup id).getD Calculator.fresh = Calculator.fresh
    rw [hstart]
    rfl
  | append_singleton actions action ih =>
    by_cases hlive : id ∈ (start.after (actions ++ [action])).ids
    · have hwell := (wellFormed_after hstart actions).1
      rw [asked_append_singleton, if_pos hlive, Calculator.follow_append, ← ih]
      rw [after_append_singleton] at hlive ⊢
      exact calculatorOf_perform hwell hlive
    · rw [asked_of_notMem hlive, calculatorOf, find?_of_notMem hlive]
      rfl

end

/-- After any actions a session answers as a fresh calculator that was asked only what the session
was asked since it is live; one that is not live is missing, and starts anew when it is acquired. A
session is live from its acquisition until it is dropped or evicted, and an action on another
session leaves its calculator alone. -/
theorem answers_alone {limit : Int} (h : 1 ≤ limit) :
    ∃ start, empty? limit = some start ∧ ∀ actions id,
      (∀ own, ((start.after actions).perform (.acquiring id own)).answer =
        answerOf (Calculator.fresh.follow (asked start id actions)) own) ∧
      (∀ own, id ∈ (start.after actions).ids →
        ((start.after actions).perform (.lookingUp id own)).answer =
          answerOf (Calculator.fresh.follow (asked start id actions)) own) ∧
      (∀ own, id ∉ (start.after actions).ids →
        (start.after actions).perform (.lookingUp id own) =
          ⟨.missing id, start.after actions, []⟩) ∧
      (id ∉ (start.after actions).ids → asked start id actions = []) ∧
      (∀ action, id ∈ ((start.after actions).perform action).sessions.ids ↔
        action.acquires id = true ∨ id ∈ (start.after actions).ids ∧ action ≠ .drop id ∧
          id ∉ evictions ((start.after actions).perform action).events) ∧
      ∀ action, action.session ≠ id → id ∈ ((start.after actions).perform action).sessions.ids →
        ((start.after actions).perform action).sessions.find? id =
          (start.after actions).find? id := by
  obtain ⟨start, hempty, -, hstart⟩ := exists_empty h
  refine ⟨start, hempty, fun actions id => ?_⟩
  have hwell := (wellFormed_after hstart actions).1
  have hcalculator := calculatorOf_after hstart actions id
  refine ⟨fun own => ?_, fun own hlive => ?_, fun own hdead => perform_lookingUp_missing hdead own,
    asked_of_notMem, fun action => mem_ids_perform hwell,
    fun action hother hlive => find?_perform_of_ne hwell hother hlive⟩
  · obtain ⟨gone, kept, hacquires⟩ := exists_acquires hwell id own
    rw [hacquires.answer, hcalculator]
  · rw [perform_lookingUp hlive, hcalculator]

/-- With room for one, a session does not see the variable of the one that it evicts, which is gone
when that one is acquired again. -/
theorem answers_evicted_anew :
    ∃ start, empty? 1 = some start ∧
      ((start.after [.acquiring "a" (.evaluate "x = 1"), .acquiring "b" .bindings]).perform
        (.lookingUp "b" .bindings)).answer = .answered (.bindings .empty) .empty ∧
      ((start.after [.acquiring "a" (.evaluate "x = 1"), .acquiring "b" .bindings]).perform
        (.acquiring "a" .bindings)).answer = .answered (.bindings .empty) .empty := by
  obtain ⟨start, hempty, hrun⟩ := answers_alone (by decide : (1 : Int) ≤ 1)
  refine ⟨start, hempty, ?_, ?_⟩
  · obtain ⟨-, hanswer, -⟩ :=
      hrun [.acquiring "a" (.evaluate "x = 1"), .acquiring "b" .bindings] "b"
    cases hempty
    rw [hanswer .bindings (by decide)]
    rfl
  · obtain ⟨hanswer, -, -, hasked, -⟩ :=
      hrun [.acquiring "a" (.evaluate "x = 1"), .acquiring "b" .bindings] "a"
    cases hempty
    rw [hanswer, hasked (by decide)]
    rfl

end Sessions

end Reckoner
