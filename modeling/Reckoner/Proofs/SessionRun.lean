import Mathlib.Data.List.DropRight
import Reckoner.Proofs.CalculatorRun
import Reckoner.Sessions

/-!
# Runs of the sessions

What one action does to the live sessions, said once for each kind of action, and what holds of the
live sessions after any actions from the start: no id is live twice, and no more sessions are live
than there is room for. An acquired session goes to the end; if it is new and there is no room, the
one in front makes way.
-/

namespace Reckoner

/-- The events of a calculation are details. -/
theorem Calculator.level_of_mem_events {calculator : Calculator} {expression : String}
    {event : Event} (h : event ∈ calculator.events expression) : event.level = .debug := by
  unfold events at h
  split at h
  next => cases h
  next =>
    rcases List.mem_append.mp h with h | h
    · rcases List.mem_pair.mp h with rfl | rfl <;> rfl
    · split at h
      next =>
        cases List.mem_singleton.mp h
        rfl
      next => cases h

/-- So are the events of everything a calculator is asked. -/
theorem Calculator.Action.level_of_mem_events {calculator : Calculator} {own : Calculator.Action}
    {event : Event} (h : event ∈ own.events calculator) : event.level = .debug := by
  cases own with
  | evaluate expression => exact Calculator.level_of_mem_events h
  | explain expression => exact Calculator.level_of_mem_events h
  | bindings => cases h
  | reset => cases h
  | editCopy => cases h

namespace Sessions

/-- The ids of the live sessions, in their order. -/
def ids (sessions : Sessions) : List String :=
  sessions.live.map Prod.fst

/-- The calculator that an acquired session has, its own or a fresh one. -/
def calculatorOf (sessions : Sessions) (id : String) : Calculator :=
  (sessions.find? id).getD Calculator.fresh

/-- Whether an action acquires a session. -/
def Action.acquires (id : String) : Action → Bool
  | .acquiring other _ => other == id
  | _ => false

/-- The ids of the sessions that some events tell the eviction of. -/
def evictions (events : List Event) : List String :=
  events.filterMap fun
    | .sessionEvicted _ id => some id
    | _ => none

/-- The answer of a calculator to an action, with its variables then. -/
def answerOf (calculator : Calculator) (own : Calculator.Action) : Answer :=
  .answered (calculator.perform own).1 (calculator.perform own).2.bindings

/-- No id is live twice, and there is room for all. -/
structure WellFormed (sessions : Sessions) : Prop where
  /-- No id is live twice. -/
  distinct : sessions.ids.Nodup
  /-- There is room for all. -/
  bounded : sessions.size ≤ sessions.limit

section

variable {sessions : Sessions} {id other : String}

/-- Every live session has an id. -/
theorem length_ids (sessions : Sessions) : sessions.ids.length = sessions.size :=
  List.length_map Prod.fst

/-- A session is live if it has a calculator. -/
theorem mem_ids_iff : id ∈ sessions.ids ↔ (sessions.find? id).isSome := by
  rw [← not_iff_not, Bool.not_eq_true, Option.isSome_eq_false_iff, Option.isNone_iff_eq_none, find?,
    List.lookup_eq_none_iff, ids, List.mem_map]
  simp only [bne_iff_ne, not_exists, not_and]
  exact ⟨fun h p hp he => h p hp he.symm, fun h p hp he => h p hp he.symm⟩

/-- A session that is not live has no calculator. -/
theorem find?_of_notMem (h : id ∉ sessions.ids) : sessions.find? id = none := by
  rw [mem_ids_iff, Bool.not_eq_true, Option.isSome_eq_false_iff, Option.isNone_iff_eq_none] at h
  exact h

/-- A live session has its calculator. -/
theorem find?_of_mem (h : id ∈ sessions.ids) :
    sessions.find? id = some (sessions.calculatorOf id) := by
  obtain ⟨calculator, hfind⟩ := Option.isSome_iff_exists.mp (mem_ids_iff.mp h)
  rw [calculatorOf, hfind]
  rfl

/-- Another calculator in a session changes no ids. -/
theorem ids_put (calculator : Calculator) : (sessions.put id calculator).ids = sessions.ids := by
  unfold ids put
  rw [List.map_map]
  refine List.map_congr_left fun entry _ => ?_
  by_cases h : entry.1 = id <;> simp [h]

/-- Erasing a session takes its id out of the row. -/
theorem ids_erase (h : sessions.ids.Nodup) : (sessions.erase id).ids = sessions.ids.erase id := by
  rw [h.erase_eq_filter, ids, ids, erase, List.filter_map]
  rfl

/-- Of the sessions without one none has its id. -/
theorem ne_of_mem_erase {entry : String × Calculator} (h : entry ∈ (sessions.erase id).live) :
    entry.1 ≠ id :=
  bne_iff_ne.mp (List.mem_filter.mp h).2

/-- A session that is dropped has no calculator, and the others keep theirs. -/
theorem find?_erase (sessions : Sessions) (id other : String) :
    (sessions.erase id).find? other = if other = id then none else sessions.find? other := by
  obtain ⟨limit, limit_pos, live⟩ := sessions
  change (live.filter (·.1 != id)).lookup other = if other = id then none else live.lookup other
  induction live with
  | nil => simp
  | cons entry live ih =>
    obtain ⟨key, calculator⟩ := entry
    by_cases hk : key = id
    · by_cases h : other = id
      · simpa [hk, h] using ih
      · have hkey : (other == id) = false := beq_eq_false_iff_ne.mpr h
        simpa [hk, h, List.lookup_cons, hkey] using ih
    · by_cases h : other = key
      · simp [hk, h]
      · have hkey : (other == key) = false := beq_eq_false_iff_ne.mpr h
        simpa [hk, List.lookup_cons, hkey] using ih

/-- A session has the calculator put into it, if it is live, and the others keep theirs. -/
theorem find?_put (sessions : Sessions) (id other : String) (calculator : Calculator) :
    (sessions.put id calculator).find? other =
      if other = id then (sessions.find? id).map fun _ => calculator else sessions.find? other := by
  obtain ⟨limit, limit_pos, live⟩ := sessions
  change (live.map fun entry => if entry.1 == id then (id, calculator) else entry).lookup other =
    if other = id then (live.lookup id).map fun _ => calculator else live.lookup other
  induction live with
  | nil => simp
  | cons entry live ih =>
    obtain ⟨key, old⟩ := entry
    by_cases hk : key = id
    · by_cases h : other = id
      · simp [hk, h]
      · have hkey : (other == id) = false := beq_eq_false_iff_ne.mpr h
        simpa [hk, h, List.lookup_cons, hkey] using ih
    · have hid : (id == key) = false := beq_eq_false_iff_ne.mpr (Ne.symm hk)
      by_cases h : other = key
      · simp [h, hk]
      · have hkey : (other == key) = false := beq_eq_false_iff_ne.mpr h
        simpa [hk, List.lookup_cons, hkey, hid] using ih

/-- The last session has its calculator, if no other one has its id. -/
theorem lookup_last {kept : List (String × Calculator)} (hkept : ∀ entry ∈ kept, entry.1 ≠ id)
    (calculator : Calculator) : (kept ++ [(id, calculator)]).lookup id = some calculator := by
  have hnone : kept.lookup id = none := by
    rw [List.lookup_eq_none_iff]
    exact fun entry hentry => bne_iff_ne.mpr (hkept entry hentry).symm
  rw [List.lookup_append, hnone, Option.none_or, List.lookup_cons_self]

/-- A calculator tells of no evictions. -/
theorem evictions_events (calculator : Calculator) (own : Calculator.Action) :
    evictions (own.events calculator) = [] := by
  rw [evictions, List.filterMap_eq_nil_iff]
  intro event hevent
  have hlevel := Calculator.Action.level_of_mem_events hevent
  split
  next => cases hlevel
  next => rfl

end

/-- What acquiring a session does. Of the other sessions those in `gone` make way, those in `kept`
stay, and the session comes behind them. -/
structure Acquires (sessions : Sessions) (id : String) (own : Calculator.Action)
    (gone kept : List (String × Calculator)) : Prop where
  /-- The sessions that make way are in front of all others. -/
  split : (sessions.erase id).live = gone ++ kept
  /-- At most one session makes way. -/
  few : gone.length ≤ 1
  /-- There is room for the session behind those that stay. -/
  room : kept.length < sessions.limit
  /-- A session makes way for a new one only, and only if there is no room. -/
  full : gone ≠ [] → id ∉ sessions.ids ∧ sessions.size = sessions.limit
  /-- The acquired session is the last one. -/
  live : (sessions.perform (.acquiring id own)).sessions.live =
    kept ++ [(id, ((sessions.calculatorOf id).perform own).2)]
  /-- There is as much room as before. -/
  limit : (sessions.perform (.acquiring id own)).sessions.limit = sessions.limit
  /-- The session's calculator answers. -/
  answer : (sessions.perform (.acquiring id own)).answer = answerOf (sessions.calculatorOf id) own
  /-- The events tell which session makes way. -/
  told : evictions (sessions.perform (.acquiring id own)).events = gone.map Prod.fst

/-- Another calculator in the last session leaves the others as they are. -/
theorem put_last {sessions : Sessions} {kept : List (String × Calculator)} {id : String}
    {old : Calculator} (hlive : sessions.live = kept ++ [(id, old)])
    (hkept : ∀ entry ∈ kept, entry.1 ≠ id) (calculator : Calculator) :
    (sessions.put id calculator).live = kept ++ [(id, calculator)] := by
  have hmap : kept.map (fun entry => if entry.1 == id then (id, calculator) else entry) = kept := by
    conv_rhs => rw [← List.map_id kept]
    refine List.map_congr_left fun entry hentry => ?_
    simp [hkept entry hentry]
  unfold put
  rw [hlive, List.map_append, hmap]
  simp

/-- An acquisition that keeps some sessions and adds the acquired one behind them. -/
theorem acquires_of_acquire {sessions acquired : Sessions} {id : String} {events : List Event}
    {gone kept : List (String × Calculator)}
    (hacquire : sessions.acquire id = (sessions.calculatorOf id, acquired, events))
    (hlive : acquired.live = kept ++ [(id, sessions.calculatorOf id)])
    (hlimit : acquired.limit = sessions.limit) (hsplit : (sessions.erase id).live = gone ++ kept)
    (hfew : gone.length ≤ 1) (hroom : kept.length < sessions.limit)
    (hfull : gone ≠ [] → id ∉ sessions.ids ∧ sessions.size = sessions.limit)
    (htold : evictions events = gone.map Prod.fst) (own : Calculator.Action) :
    Acquires sessions id own gone kept := by
  have hperform : sessions.perform (.acquiring id own) =
      acquired.within id (sessions.calculatorOf id) own events := by
    rw [perform, hacquire]
  have hkept : ∀ entry ∈ kept, entry.1 ≠ id := fun entry hentry =>
    ne_of_mem_erase (hsplit ▸ List.mem_append_right gone hentry)
  refine ⟨hsplit, hfew, hroom, hfull, ?_, ?_, ?_, ?_⟩
  · rw [hperform]
    exact put_last hlive hkept _
  · rw [hperform]
    exact hlimit
  · rw [hperform]
    rfl
  · rw [hperform, within]
    dsimp only
    rw [evictions, List.filterMap_append, ← evictions, ← evictions, evictions_events, htold,
      List.append_nil]

/-- The sessions without one that is not live are the same. -/
theorem erase_of_notMem {sessions : Sessions} {id : String} (h : id ∉ sessions.ids) :
    (sessions.erase id).live = sessions.live := by
  refine List.filter_eq_self.mpr fun entry hentry => ?_
  have hne : entry.1 ≠ id := fun he => h (List.mem_map.mpr ⟨entry, hentry, he⟩)
  simpa using hne

/-- A live session that is acquired goes to the end. -/
theorem acquire_of_mem {sessions : Sessions} {id : String} (h : id ∈ sessions.ids) :
    sessions.acquire id = (sessions.calculatorOf id,
      { sessions with
        live := (sessions.erase id).live ++ [(id, sessions.calculatorOf id)] }, []) := by
  rw [acquire, find?_of_mem h]

/-- A new session comes behind those for which there is room besides it, and the events tell that it
is created and which ones make way. -/
theorem acquire_of_notMem {sessions : Sessions} {id : String} (h : id ∉ sessions.ids) :
    sessions.acquire id = (sessions.calculatorOf id,
      { sessions with
        live := sessions.live.drop (sessions.size + 1 - sessions.limit) ++
          [(id, sessions.calculatorOf id)] },
      .sessionCreated id :: (sessions.live.take (sessions.size + 1 - sessions.limit)).map
        fun entry => .sessionEvicted sessions.limit entry.1) := by
  have hfind := find?_of_notMem h
  have hcalculator : sessions.calculatorOf id = Calculator.fresh := by
    rw [calculatorOf, hfind]
    rfl
  have hpositive := sessions.limit_pos
  -- there is room for one session, so those that make way were live before
  have hexcess : sessions.size + 1 - sessions.limit ≤ sessions.live.length := by
    rw [← size]
    omega
  have hgrown : (sessions.live ++ [(id, Calculator.fresh)]).length - sessions.limit =
      sessions.size + 1 - sessions.limit := by
    rw [List.length_append, List.length_singleton, size]
  rw [acquire, hfind]
  dsimp only
  rw [hgrown, List.drop_append_of_le_length hexcess, List.take_append_of_le_length hexcess,
    hcalculator]

/-- A live session is acquired without another one making way. -/
theorem acquires_live {sessions : Sessions} (hbounded : sessions.size ≤ sessions.limit)
    {id : String} (h : id ∈ sessions.ids) (own : Calculator.Action) :
    Acquires sessions id own [] (sessions.erase id).live := by
  have hsplit : (sessions.erase id).live = [] ++ (sessions.erase id).live := rfl
  have hroom : (sessions.erase id).live.length < sessions.live.length := by
    obtain ⟨entry, hentry, he⟩ := List.mem_map.mp h
    exact List.length_filter_lt_length_iff_exists.mpr ⟨entry, hentry, by simp [he]⟩
  exact acquires_of_acquire (acquire_of_mem h) rfl rfl hsplit (Nat.zero_le 1)
    (hroom.trans_le hbounded) (fun hne => absurd rfl hne) rfl own

/-- A new session is acquired, and if there is no room for it, the one in front makes way. -/
theorem acquires_new {sessions : Sessions} (hbounded : sessions.size ≤ sessions.limit) {id : String}
    (h : id ∉ sessions.ids) (own : Calculator.Action) :
    Acquires sessions id own (sessions.live.take (sessions.size + 1 - sessions.limit))
      (sessions.live.drop (sessions.size + 1 - sessions.limit)) := by
  have hpositive := sessions.limit_pos
  refine acquires_of_acquire (acquire_of_notMem h) rfl rfl ?_ ?_ ?_ ?_ ?_ own
  · rw [erase_of_notMem h, List.take_append_drop]
  · rw [List.length_take]
    omega
  · rw [List.length_drop, ← size]
    omega
  · intro hne
    refine ⟨h, ?_⟩
    have hlength : 0 < (sessions.live.take (sessions.size + 1 - sessions.limit)).length :=
      List.length_pos_iff.mpr hne
    rw [List.length_take] at hlength
    omega
  · rw [evictions, List.filterMap_cons_none rfl, List.filterMap_map]
    exact List.filterMap_eq_map_iff_forall_eq_some.mpr fun _ _ => rfl

/-- A session is acquired in this way. -/
theorem exists_acquires {sessions : Sessions} (h : sessions.WellFormed) (id : String)
    (own : Calculator.Action) : ∃ gone kept, Acquires sessions id own gone kept := by
  by_cases hid : id ∈ sessions.ids
  · exact ⟨_, _, acquires_live h.bounded hid own⟩
  · exact ⟨_, _, acquires_new h.bounded hid own⟩

section

variable {sessions : Sessions} {id other : String} {own : Calculator.Action}
  {gone kept : List (String × Calculator)}

/-- The acquired session comes behind those that stay. -/
theorem Acquires.ids_eq (h : Acquires sessions id own gone kept) :
    (sessions.perform (.acquiring id own)).sessions.ids = kept.map Prod.fst ++ [id] := by
  rw [ids, h.live, List.map_append, List.map_singleton]

/-- The other ids are those that make way and those that stay. -/
theorem Acquires.erase_eq (h : Acquires sessions id own gone kept)
    (hdistinct : sessions.ids.Nodup) :
    sessions.ids.erase id = gone.map Prod.fst ++ kept.map Prod.fst := by
  rw [← ids_erase hdistinct, ids, h.split, List.map_append]

/-- The ids that stay do so in their order. -/
theorem Acquires.kept_sublist (h : Acquires sessions id own gone kept)
    (hdistinct : sessions.ids.Nodup) : (kept.map Prod.fst).Sublist (sessions.ids.erase id) := by
  rw [h.erase_eq hdistinct]
  exact List.sublist_append_right _ _

/-- An id that stays does not make way. -/
theorem Acquires.notMem_gone (h : Acquires sessions id own gone kept)
    (hdistinct : sessions.ids.Nodup) (hkept : other ∈ kept.map Prod.fst) :
    other ∉ gone.map Prod.fst := by
  have hrow := hdistinct.erase id
  rw [h.erase_eq hdistinct, List.nodup_append] at hrow
  exact fun hgone => hrow.2.2 other hgone other hkept rfl

/-- Acquiring a session keeps the ids distinct and within the limit. -/
theorem Acquires.wellFormed (h : Acquires sessions id own gone kept) (hw : sessions.WellFormed) :
    (sessions.perform (.acquiring id own)).sessions.WellFormed := by
  have hsub := h.kept_sublist hw.distinct
  have hid : id ∉ kept.map Prod.fst := fun hm => hw.distinct.not_mem_erase (hsub.subset hm)
  constructor
  · rw [h.ids_eq, List.nodup_append]
    refine ⟨(hw.distinct.erase id).sublist hsub, List.pairwise_singleton _ id, ?_⟩
    intro other hother last hlast he
    rw [List.mem_singleton.mp hlast] at he
    exact hid (he ▸ hother)
  · rw [h.limit, size, h.live, List.length_append, List.length_singleton]
    exact h.room

/-- A session that is looked up answers, if it is live. -/
theorem perform_lookingUp (h : id ∈ sessions.ids) (own : Calculator.Action) :
    sessions.perform (.lookingUp id own) =
      ⟨answerOf (sessions.calculatorOf id) own,
        sessions.put id ((sessions.calculatorOf id).perform own).2,
        own.events (sessions.calculatorOf id)⟩ := by
  rw [perform, find?_of_mem h]
  rfl

/-- A session that is not live is missing, and looking it up changes nothing. -/
theorem perform_lookingUp_missing (h : id ∉ sessions.ids) (own : Calculator.Action) :
    sessions.perform (.lookingUp id own) = ⟨.missing id, sessions, []⟩ := by
  rw [perform, find?_of_notMem h]

/-- Looking a session up changes no ids. -/
theorem ids_lookingUp (sessions : Sessions) (id : String) (own : Calculator.Action) :
    (sessions.perform (.lookingUp id own)).sessions.ids = sessions.ids := by
  by_cases h : id ∈ sessions.ids
  · rw [perform_lookingUp h]
    exact ids_put _
  · rw [perform_lookingUp_missing h]

/-- A session that is dropped is erased, live or not. -/
theorem perform_drop (sessions : Sessions) (id : String) :
    (sessions.perform (.drop id)).sessions.live = (sessions.erase id).live := by
  by_cases h : id ∈ sessions.ids
  · rw [perform, find?_of_mem h]
  · rw [perform, find?_of_notMem h, erase_of_notMem h]

/-- A session that is dropped is the only one to go. -/
theorem ids_drop (h : sessions.ids.Nodup) (id : String) :
    (sessions.perform (.drop id)).sessions.ids = sessions.ids.erase id := by
  rw [← ids_erase h, ids, perform_drop, ids]

/-- Looking a session up evicts none. -/
theorem evictions_lookingUp (sessions : Sessions) (id : String) (own : Calculator.Action) :
    evictions (sessions.perform (.lookingUp id own)).events = [] := by
  by_cases h : id ∈ sessions.ids
  · rw [perform_lookingUp h]
    exact evictions_events _ own
  · rw [perform_lookingUp_missing h]
    rfl

/-- Dropping a session evicts none. -/
theorem evictions_drop (sessions : Sessions) (id : String) :
    evictions (sessions.perform (.drop id)).events = [] := by
  rw [perform]
  split
  next => rfl
  next => rfl

/-- A session is live if it is acquired, and stays so unless it is dropped or evicted. -/
theorem mem_ids_perform (h : sessions.WellFormed) {action : Action} :
    id ∈ (sessions.perform action).sessions.ids ↔
      action.acquires id = true ∨ id ∈ sessions.ids ∧ action ≠ .drop id ∧
        id ∉ evictions (sessions.perform action).events := by
  cases action with
  | acquiring other own =>
    obtain ⟨gone, kept, hacquires⟩ := exists_acquires h other own
    have herase := hacquires.erase_eq h.distinct
    have hmem : id ∈ gone.map Prod.fst ∨ id ∈ kept.map Prod.fst ↔
        id ≠ other ∧ id ∈ sessions.ids := by
      rw [← List.mem_append, ← herase, h.distinct.mem_erase_iff]
    rw [hacquires.ids_eq, hacquires.told, List.mem_append, List.mem_singleton, Action.acquires,
      beq_iff_eq]
    constructor
    · rintro (hkept | rfl)
      · exact .inr ⟨(hmem.mp (.inr hkept)).2, nofun, hacquires.notMem_gone h.distinct hkept⟩
      · exact .inl rfl
    · rintro (rfl | ⟨hid, -, hgone⟩)
      · exact .inr rfl
      · by_cases hne : id = other
        · exact .inr hne
        · exact .inl ((hmem.mpr ⟨hne, hid⟩).resolve_left hgone)
  | lookingUp other own =>
    rw [ids_lookingUp, evictions_lookingUp]
    simp [Action.acquires]
  | drop other =>
    rw [ids_drop h.distinct, evictions_drop, h.distinct.mem_erase_iff]
    simp [Action.acquires, and_comm, eq_comm]

/-- A session is evicted by a new one only, from the front, and only if there is no room. -/
theorem eq_cons_of_evicted (h : sessions.WellFormed) {action : Action}
    (hid : id ∈ evictions (sessions.perform action).events) :
    ∃ other own rest, action = .acquiring other own ∧ other ∉ sessions.ids ∧
      sessions.size = sessions.limit ∧ sessions.ids = id :: rest := by
  cases action with
  | acquiring other own =>
    obtain ⟨gone, kept, hacquires⟩ := exists_acquires h other own
    have herase := hacquires.erase_eq h.distinct
    rw [hacquires.told] at hid
    have hfew := hacquires.few
    match gone, hid, hfew, hacquires.full, herase with
    | [entry], hid, _, hfull, herase =>
      cases List.mem_singleton.mp hid
      obtain ⟨hother, hsize⟩ := hfull (List.cons_ne_nil _ _)
      rw [List.erase_of_not_mem hother] at herase
      exact ⟨other, own, _, rfl, hother, hsize, herase⟩
  | lookingUp other own =>
    rw [evictions_lookingUp] at hid
    cases hid
  | drop other =>
    rw [evictions_drop] at hid
    cases hid

/-- Every action keeps the ids distinct and within the limit, which stays the same. -/
theorem WellFormed.perform (h : sessions.WellFormed) (action : Action) :
    (sessions.perform action).sessions.WellFormed ∧
      (sessions.perform action).sessions.limit = sessions.limit := by
  cases action with
  | acquiring id own =>
    obtain ⟨gone, kept, hacquires⟩ := exists_acquires h id own
    exact ⟨hacquires.wellFormed h, hacquires.limit⟩
  | lookingUp id own =>
    have hids := ids_lookingUp sessions id own
    have hlimit : (sessions.perform (.lookingUp id own)).sessions.limit = sessions.limit := by
      by_cases hid : id ∈ sessions.ids
      · rw [perform_lookingUp hid]
        rfl
      · rw [perform_lookingUp_missing hid]
    refine ⟨⟨hids ▸ h.distinct, ?_⟩, hlimit⟩
    rw [hlimit, ← length_ids, hids, length_ids]
    exact h.bounded
  | drop id =>
    have hlive := perform_drop sessions id
    have hlimit : (sessions.perform (.drop id)).sessions.limit = sessions.limit := by
      rw [Sessions.perform]
      split
      next => rfl
      next => rfl
    have hsub : (sessions.erase id).live.Sublist sessions.live := List.filter_sublist
    refine ⟨⟨?_, ?_⟩, hlimit⟩
    · rw [ids, hlive]
      exact h.distinct.sublist (hsub.map Prod.fst)
    · rw [hlimit, size, hlive]
      exact hsub.length_le.trans h.bounded

end

/-- The sessions after some actions in a row. -/
def after (sessions : Sessions) (actions : List Action) : Sessions :=
  actions.foldl (fun sessions action => (sessions.perform action).sessions) sessions

/-- Some actions in a row, each with its outcome. -/
def trace (sessions : Sessions) (actions : List Action) : List (Action × Outcome) :=
  actions.zip (sessions.run actions)

/-- One more action is performed on the sessions at the end. -/
theorem after_append_singleton (sessions : Sessions) (actions : List Action) (action : Action) :
    sessions.after (actions ++ [action]) = ((sessions.after actions).perform action).sessions :=
  List.foldl_append

/-- One more action has its outcome at the end. -/
theorem trace_append_singleton (sessions : Sessions) (actions : List Action) (action : Action) :
    sessions.trace (actions ++ [action]) =
      sessions.trace actions ++ [(action, (sessions.after actions).perform action)] :=
  zip_run_append_singleton run perform (fun sessions action => (sessions.perform action).sessions)
    (fun _ => rfl) (fun _ _ _ => rfl) sessions actions action

/-- There is a start without sessions for every limit from one on. -/
theorem exists_empty {limit : Int} (h : 1 ≤ limit) :
    ∃ start, empty? limit = some start ∧ (start.limit : Int) = limit ∧ start.live = [] := by
  have hpositive : 0 < limit.toNat := by omega
  refine ⟨⟨limit.toNat, hpositive, []⟩, ?_, ?_, rfl⟩
  · rw [empty?, dif_pos hpositive]
  · exact Int.toNat_of_nonneg (by omega)

/-- After any actions from the start the ids are distinct and within the limit. -/
theorem wellFormed_after {start : Sessions} (hstart : start.live = []) (actions : List Action) :
    (start.after actions).WellFormed ∧ (start.after actions).limit = start.limit := by
  induction actions using List.reverseRecOn with
  | nil =>
    refine ⟨⟨?_, ?_⟩, rfl⟩
    · change (start.live.map Prod.fst).Nodup
      rw [hstart]
      exact List.nodup_nil
    · change start.live.length ≤ start.limit
      rw [hstart]
      exact Nat.zero_le _
  | append_singleton actions action ih =>
    rw [after_append_singleton]
    have hstep := ih.1.perform action
    exact ⟨hstep.1, hstep.2.trans ih.2⟩

end Sessions

end Reckoner
