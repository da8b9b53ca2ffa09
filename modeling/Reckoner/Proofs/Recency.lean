import Mathlib.Data.List.Dedup
import Mathlib.Data.List.Perm.Basic
import Reckoner.Proofs.SessionRun

/-!
# The sessions acquired latest

The live sessions stand in the order in which they were last acquired, so the one that makes way for
a new one is the one whose last acquisition lies back the furthest. Hence a session stays live while
fewer other sessions are acquired behind it than there is room for, unless it is dropped; and where
nothing is dropped it is gone once there were as many.
-/

namespace Reckoner.Sessions

/-- The ids that some actions acquire, in their order. -/
def acquisitions (actions : List Action) : List String :=
  actions.filterMap fun
    | .acquiring id _ => some id
    | _ => none

/-- The actions behind the last one that acquires a session. -/
def since (id : String) (actions : List Action) : List Action :=
  actions.rtakeWhile (!·.acquires id)

/-- How many sessions some actions acquire. -/
def acquiredCount (actions : List Action) : Nat :=
  (acquisitions actions).dedup.length

section

variable {actions : List Action} {action : Action} {id other : String}

/-- Nothing is behind an action that acquires the session, and any other action comes behind. -/
theorem since_append_singleton (id : String) (actions : List Action) (action : Action) :
    since id (actions ++ [action]) =
      if action.acquires id then [] else since id actions ++ [action] := by
  unfold since
  rw [List.rtakeWhile_concat]
  cases action.acquires id <;> rfl

/-- One more action adds the session that it acquires. -/
theorem mem_acquisitions_append :
    id ∈ acquisitions (actions ++ [action]) ↔
      id ∈ acquisitions actions ∨ action.acquires id = true := by
  rw [acquisitions, List.filterMap_append, List.mem_append]
  refine or_congr_right ?_
  cases action with
  | acquiring other own =>
    change id ∈ [other] ↔ (other == id) = true
    rw [List.mem_singleton, beq_iff_eq]
    exact eq_comm
  | lookingUp other own => simp [Action.acquires]
  | drop other => simp [Action.acquires]

/-- One more action adds the session that it acquires to those behind the last acquisition of every
other session. -/
theorem mem_since_append :
    other ∈ acquisitions (since id (actions ++ [action])) ↔
      action.acquires id = false ∧
        (other ∈ acquisitions (since id actions) ∨ action.acquires other = true) := by
  rw [since_append_singleton]
  cases action.acquires id with
  | true => simp [acquisitions]
  | false => simp [mem_acquisitions_append]

/-- A session is not acquired behind its last acquisition. -/
theorem notMem_since (id : String) (actions : List Action) :
    id ∉ acquisitions (since id actions) := by
  intro hmem
  obtain ⟨action, haction, hid⟩ := List.mem_filterMap.mp hmem
  have hother := List.mem_rtakeWhile_imp haction
  cases action with
  | acquiring other own =>
    cases hid
    simp [Action.acquires] at hother
  | lookingUp => cases hid
  | drop => cases hid

/-- Of two sessions only one was acquired behind the last acquisition of the other. -/
theorem notMem_since_of_mem_since (h : other ∈ acquisitions (since id actions)) :
    id ∉ acquisitions (since other actions) := by
  induction actions using List.reverseRecOn with
  | nil => cases h
  | append_singleton actions action ih =>
    rw [mem_since_append] at h ⊢
    rintro ⟨hother, hid⟩
    have hbefore : other ∈ acquisitions (since id actions) :=
      h.2.resolve_right (by simp [hother])
    have hid : id ∈ acquisitions (since other actions) := hid.resolve_right (by simp [h.1])
    exact ih hbefore hid

/-- As many sessions are acquired as there are different ones among them. -/
theorem length_le_acquiredCount {ids : List String} (hdistinct : ids.Nodup)
    (hids : ids ⊆ acquisitions actions) : ids.length ≤ acquiredCount actions := by
  have hsub : ids ⊆ (acquisitions actions).dedup := fun id hid => List.mem_dedup.mpr (hids hid)
  exact (List.subperm_of_subset hdistinct hsub).length_le

/-- One more action acquires no fewer sessions. -/
theorem acquiredCount_le (actions : List Action) (action : Action) :
    acquiredCount actions ≤ acquiredCount (actions ++ [action]) := by
  refine length_le_acquiredCount (List.nodup_dedup _) fun id hid => ?_
  exact mem_acquisitions_append.mpr (.inl (List.mem_dedup.mp hid))

end

section

variable {start : Sessions}

/-- The live sessions stand in the order of their last acquisitions. -/
theorem pairwise_since (hstart : start.live = []) (actions : List Action) :
    (start.after actions).ids.Pairwise fun id other => other ∈ acquisitions (since id actions) := by
  induction actions using List.reverseRecOn with
  | nil =>
    change (start.live.map Prod.fst).Pairwise _
    rw [hstart]
    exact .nil
  | append_singleton actions action ih =>
    have hwell := (wellFormed_after hstart actions).1
    -- an order of sessions that are not acquired is kept
    have hkeep : ∀ ids : List String, ids.Sublist (start.after actions).ids →
        (∀ id ∈ ids, action.acquires id = false) →
        ids.Pairwise fun id other => other ∈ acquisitions (since id (actions ++ [action])) := by
      intro ids hsub hfree
      refine (ih.sublist hsub).imp_of_mem fun hid _ hother => ?_
      exact mem_since_append.mpr ⟨hfree _ hid, .inl hother⟩
    rw [after_append_singleton]
    cases action with
    | acquiring id own =>
      obtain ⟨gone, kept, hacquires⟩ := exists_acquires hwell id own
      have hsub := hacquires.kept_sublist hwell.distinct
      have hfree : ∀ other ∈ kept.map Prod.fst,
          (Action.acquiring id own).acquires other = false := by
        intro other hother
        have hne : id ≠ other := by
          rintro rfl
          exact hwell.distinct.not_mem_erase (hsub.subset hother)
        simpa [Action.acquires] using hne
      rw [hacquires.ids_eq, List.pairwise_append]
      refine ⟨hkeep _ (hsub.trans List.erase_sublist) hfree, List.pairwise_singleton _ _, ?_⟩
      intro other hother last hlast
      cases List.mem_singleton.mp hlast
      exact mem_since_append.mpr ⟨hfree other hother, .inr (by simp [Action.acquires])⟩
    | lookingUp id own =>
      rw [ids_lookingUp]
      exact hkeep _ (List.Sublist.refl _) fun _ _ => rfl
    | drop id =>
      rw [ids_drop hwell.distinct]
      exact hkeep _ List.erase_sublist fun _ _ => rfl

/-- A session stays live while fewer others are acquired behind it than there is room for, unless it
is dropped. -/
theorem mem_ids_of_recent (hstart : start.live = []) {actions : List Action} {id : String}
    (hid : id ∈ acquisitions actions) (hdrop : .drop id ∉ since id actions)
    (hfew : acquiredCount (since id actions) < start.limit) : id ∈ (start.after actions).ids := by
  induction actions using List.reverseRecOn with
  | nil => cases hid
  | append_singleton actions action ih =>
    obtain ⟨hwell, hlimit⟩ := wellFormed_after hstart actions
    rw [after_append_singleton, mem_ids_perform hwell]
    cases hacquires : action.acquires id with
    | true => exact .inl rfl
    | false =>
      rw [since_append_singleton, hacquires, if_neg Bool.false_ne_true] at hdrop hfew
      have hbefore : id ∈ acquisitions actions :=
        (mem_acquisitions_append.mp hid).resolve_right (by simp [hacquires])
      have hnow : id ∈ (start.after actions).ids :=
        ih hbefore (fun hmem => hdrop (List.mem_append_left _ hmem))
          ((acquiredCount_le _ action).trans_lt hfew)
      refine .inr ⟨hnow, fun he => hdrop (he ▸ List.mem_append_right _ List.mem_cons_self), ?_⟩
      -- if it were evicted, the sessions behind it and the new one would be too many
      intro hevicted
      obtain ⟨other, own, rest, rfl, hother, hsize, hids⟩ := eq_cons_of_evicted hwell hevicted
      have horder := pairwise_since hstart actions
      have hdistinct := hwell.distinct
      rw [hids] at horder hdistinct hother
      have hrest : ∀ later ∈ rest, later ∈ acquisitions (since id actions) :=
        (List.pairwise_cons.mp horder).1
      have hmany : (other :: rest).length ≤
          acquiredCount (since id actions ++ [.acquiring other own]) := by
        refine length_le_acquiredCount ?_ ?_
        · refine List.nodup_cons.mpr ⟨fun hmem => hother (List.mem_cons_of_mem _ hmem), ?_⟩
          exact (List.nodup_cons.mp hdistinct).2
        · intro later hlater
          rw [mem_acquisitions_append]
          rcases List.mem_cons.mp hlater with rfl | hlater
          · exact .inr (by simp [Action.acquires])
          · exact .inl (hrest later hlater)
      have hlength : (other :: rest).length = start.limit := by
        rw [← hlimit, ← hsize, ← length_ids, hids, List.length_cons, List.length_cons]
      omega

/-- Where nothing is dropped, all sessions acquired behind a live one are live. -/
theorem since_subset_ids (hstart : start.live = []) {actions : List Action} {id : String}
    (hid : id ∈ (start.after actions).ids) (hdrop : ∀ other, .drop other ∉ since id actions) :
    acquisitions (since id actions) ⊆ (start.after actions).ids := by
  induction actions using List.reverseRecOn with
  | nil => exact fun other hother => absurd hother List.not_mem_nil
  | append_singleton actions action ih =>
    have hwell := (wellFormed_after hstart actions).1
    rw [after_append_singleton] at hid ⊢
    intro other hbehind
    obtain ⟨hacquires, hother⟩ := mem_since_append.mp hbehind
    rw [since_append_singleton, hacquires, if_neg Bool.false_ne_true] at hdrop
    obtain ⟨hnow, -, -⟩ := ((mem_ids_perform hwell).mp hid).resolve_left (by simp [hacquires])
    rw [mem_ids_perform hwell]
    rcases hother with hother | hother
    · have hlive := ih hnow (fun later hmem => hdrop later (List.mem_append_left _ hmem)) hother
      refine .inr ⟨hlive,
        fun he => hdrop other (he ▸ List.mem_append_right _ List.mem_cons_self), ?_⟩
      -- what is evicted was acquired before all that is live
      intro hevicted
      obtain ⟨new, own, rest, rfl, -, -, hids⟩ := eq_cons_of_evicted hwell hevicted
      have horder := pairwise_since hstart actions
      rw [hids] at horder hnow
      rcases List.mem_cons.mp hnow with rfl | hrest
      · exact notMem_since id actions hother
      · exact notMem_since_of_mem_since hother ((List.pairwise_cons.mp horder).1 id hrest)
    · exact .inl hother

/-- Where nothing is dropped, a session is gone once as many others are acquired behind it as there
is room for. -/
theorem notMem_ids_of_many (hstart : start.live = []) {actions : List Action} {id : String}
    (hdrop : ∀ other, .drop other ∉ since id actions)
    (hmany : start.limit ≤ acquiredCount (since id actions)) : id ∉ (start.after actions).ids := by
  intro hid
  obtain ⟨hwell, hlimit⟩ := wellFormed_after hstart actions
  have hsub := since_subset_ids hstart hid hdrop
  have hdistinct : (id :: (acquisitions (since id actions)).dedup).Nodup :=
    List.nodup_cons.mpr ⟨fun hmem => notMem_since id actions (List.mem_dedup.mp hmem),
      List.nodup_dedup _⟩
  have hlive : (id :: (acquisitions (since id actions)).dedup) ⊆ (start.after actions).ids := by
    intro other hother
    rcases List.mem_cons.mp hother with rfl | hother
    · exact hid
    · exact hsub (List.mem_dedup.mp hother)
  have hlength := (List.subperm_of_subset hdistinct hlive).length_le
  have hbounded := hwell.bounded
  rw [List.length_cons, length_ids] at hlength
  unfold acquiredCount at hmany
  omega

end

/-- After any actions the live sessions are distinct, within the limit, and in the order of their
last acquisitions. An acquired session comes last; only a new one makes another session leave, and
this is the one in front. Looking up and dropping do not change the order. A session is live while
fewer others are acquired behind it than the limit, unless it is dropped, and where nothing is
dropped it is not live once there were as many. -/
theorem keeps_latest_acquired {limit : Int} (h : 1 ≤ limit) :
    ∃ start, empty? limit = some start ∧ ∀ actions,
      ((start.after actions).size : Int) ≤ limit ∧
      (start.after actions).ids.Nodup ∧
      ((start.after actions).ids.Pairwise fun id other => other ∈ acquisitions (since id actions)) ∧
      (∀ id own, ∃ gone kept,
        (start.after actions).ids.erase id = gone ++ kept ∧
        ((start.after actions).perform (.acquiring id own)).sessions.ids = kept ++ [id] ∧
        evictions ((start.after actions).perform (.acquiring id own)).events = gone ∧
        gone.length ≤ 1 ∧
        (gone ≠ [] → id ∉ (start.after actions).ids ∧ ((start.after actions).size : Int) = limit)) ∧
      (∀ id own, ((start.after actions).perform (.lookingUp id own)).sessions.ids =
        (start.after actions).ids) ∧
      (∀ id, ((start.after actions).perform (.drop id)).sessions.ids =
        (start.after actions).ids.erase id) ∧
      (∀ id ∈ acquisitions actions, .drop id ∉ since id actions →
        (acquiredCount (since id actions) : Int) < limit → id ∈ (start.after actions).ids) ∧
      ∀ id, (∀ other, .drop other ∉ since id actions) →
        limit ≤ (acquiredCount (since id actions) : Int) → id ∉ (start.after actions).ids := by
  obtain ⟨start, hempty, rfl, hstart⟩ := exists_empty h
  refine ⟨start, hempty, fun actions => ?_⟩
  obtain ⟨hwell, hlimit⟩ := wellFormed_after hstart actions
  have hbounded := hwell.bounded
  refine ⟨by omega, hwell.distinct, pairwise_since hstart actions, ?_, ids_lookingUp _,
    ids_drop hwell.distinct, ?_, ?_⟩
  · intro id own
    obtain ⟨gone, kept, hacquires⟩ := exists_acquires hwell id own
    refine ⟨gone.map Prod.fst, kept.map Prod.fst, hacquires.erase_eq hwell.distinct,
      hacquires.ids_eq, hacquires.told, ?_, fun hne => ?_⟩
    · rw [List.length_map]
      exact hacquires.few
    · have hgone : gone ≠ [] := fun he => hne (he ▸ rfl)
      obtain ⟨hid, hsize⟩ := hacquires.full hgone
      exact ⟨hid, by omega⟩
  · intro id hid hdrop hfew
    exact mem_ids_of_recent hstart hid hdrop (by omega)
  · intro id hdrop hmany
    exact notMem_ids_of_many hstart hdrop (by omega)

/-- With room for two, a session that is acquired again outlives one that is not. -/
theorem keeps_acquired_again :
    ∃ start, empty? 2 = some start ∧
      "a" ∈ (start.after [.acquiring "a" .bindings, .acquiring "b" .bindings,
        .acquiring "a" .bindings, .acquiring "c" .bindings]).ids ∧
      "b" ∉ (start.after [.acquiring "a" .bindings, .acquiring "b" .bindings,
        .acquiring "a" .bindings, .acquiring "c" .bindings]).ids := by
  obtain ⟨start, hempty, hrun⟩ := keeps_latest_acquired (by decide : (1 : Int) ≤ 2)
  obtain ⟨-, -, -, -, -, -, hrecent, hmany⟩ := hrun [.acquiring "a" .bindings,
    .acquiring "b" .bindings, .acquiring "a" .bindings, .acquiring "c" .bindings]
  refine ⟨start, hempty, hrecent "a" ?_ ?_ ?_, hmany "b" ?_ ?_⟩
  · decide
  · simp [since, List.rtakeWhile, Action.acquires]
  · decide
  · simp [since, List.rtakeWhile, Action.acquires]
  · decide

end Reckoner.Sessions
