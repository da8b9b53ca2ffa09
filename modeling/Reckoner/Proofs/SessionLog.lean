import Reckoner.Proofs.SessionRun

/-!
# The account that the log gives

Each record that the sessions write tells that one was created, dropped or evicted, and which one.
Whoever reads the records in their order, and adds and removes the sessions that they name, knows at
every time which sessions are live. No record adds a session that is live or removes one that is
not, and where the live sessions stay the same nothing is recorded.
-/

namespace Reckoner

namespace Log

/-- What a record tells of the live sessions. -/
inductive Change where
  /-- A session was created. -/
  | created (id : String)
  /-- A session was dropped. -/
  | dropped (id : String)
  /-- A session was evicted. -/
  | evicted (id : String)

/-- The front of the record of a session that was created. -/
def createdMark : String := "INFO:shunt_calc.sessions:Session created: "

/-- The front of the record of a session that was dropped. -/
def droppedMark : String := "INFO:shunt_calc.sessions:Session dropped: "

/-- The front of the record of a session that was evicted. The limit stands behind it. -/
def evictedMark : String := "INFO:shunt_calc.sessions:Session evicted (max_sessions="

/-- What stands behind a mark at the front of a text. -/
def behind? (mark text : List Char) : Option (List Char) :=
  if mark <+: text then some (text.drop mark.length) else none

/-- The id that the record of an eviction tells. -/
def evictedId? (record : List Char) : Option (List Char) :=
  (behind? evictedMark.toList record).bind fun limit =>
    behind? "): ".toList (limit.dropWhile (· ≠ ')'))

/-- The change that a record tells. -/
def Change.ofRecord? (record : String) : Option Change :=
  ((behind? createdMark.toList record.toList).map fun id => .created (String.ofList id)).or <|
    ((behind? droppedMark.toList record.toList).map fun id => .dropped (String.ofList id)).or <|
      (evictedId? record.toList).map fun id => .evicted (String.ofList id)

/-- The ids after a change. A created session must be new, and one that goes must be there. -/
def Change.idsAfter? (ids : List String) : Change → Option (List String)
  | .created id => if id ∈ ids then none else some (ids ++ [id])
  | .dropped id | .evicted id => if id ∈ ids then some (ids.erase id) else none

/-- The ids after some records, each of which must tell a change that can be made. -/
def replay? (ids : List String) (records : List String) : Option (List String) :=
  records.foldlM (fun ids record => (Change.ofRecord? record).bind (Change.idsAfter? ids)) ids

/-- Whether a change is a creation. -/
def Change.isCreated : Change → Bool
  | .created _ => true
  | _ => false

/-- Whether a change is a drop. -/
def Change.isDropped : Change → Bool
  | .dropped _ => true
  | _ => false

/-- Whether a change is an eviction. -/
def Change.isEvicted : Change → Bool
  | .evicted _ => true
  | _ => false

/-- How many of some records tell a change of a kind. -/
def tally (kind : Change → Bool) (records : List String) : Nat :=
  (records.filterMap Change.ofRecord?).countP kind

section

variable {mark other rest : List Char} {ids after : List String} {records : List String}
  {record id : String}

/-- A text behind a mark is read from there. -/
theorem behind?_append (mark rest : List Char) : behind? mark (mark ++ rest) = some rest := by
  rw [behind?, if_pos (List.prefix_append mark rest), List.drop_left]

/-- Behind another mark that does not begin with it, a mark is not found. -/
theorem behind?_of_other (hlength : mark.length ≤ other.length) (hother : ¬ mark <+: other) :
    behind? mark (other ++ rest) = none := by
  refine if_neg fun hmark => hother ?_
  exact List.prefix_of_prefix_length_le hmark (List.prefix_append other rest) hlength

/-- The record of a session begins with its level, where it comes from, and the front of its
message. -/
theorem record_of_message {event : Event} {front rest : String} (hlevel : event.level = .info)
    (hchannel : event.channel = "shunt_calc.sessions") (hmessage : event.message = front ++ rest) :
    event.record = "INFO:shunt_calc.sessions:" ++ front ++ rest := by
  have hfront : Level.info.name ++ ":" ++ "shunt_calc.sessions" ++ ":" =
      "INFO:shunt_calc.sessions:" := by decide
  rw [Event.record, hlevel, hchannel, hmessage, hfront, String.append_assoc]

/-- The record of a creation. -/
theorem record_created (id : String) : (Event.sessionCreated id).record = createdMark ++ id := by
  have hmark : "INFO:shunt_calc.sessions:" ++ "Session created: " = createdMark := by decide
  have hrecord : (Event.sessionCreated id).record =
      "INFO:shunt_calc.sessions:" ++ "Session created: " ++ id := record_of_message rfl rfl rfl
  rw [hrecord, hmark]

/-- The record of a drop. -/
theorem record_dropped (id : String) : (Event.sessionDropped id).record = droppedMark ++ id := by
  have hmark : "INFO:shunt_calc.sessions:" ++ "Session dropped: " = droppedMark := by decide
  have hrecord : (Event.sessionDropped id).record =
      "INFO:shunt_calc.sessions:" ++ "Session dropped: " ++ id := record_of_message rfl rfl rfl
  rw [hrecord, hmark]

/-- The record of an eviction. -/
theorem record_evicted (limit : Nat) (id : String) :
    (Event.sessionEvicted limit id).record =
      evictedMark ++ (Number.natural limit ++ ("): " ++ id)) := by
  have hmark : "INFO:shunt_calc.sessions:" ++ "Session evicted (max_sessions=" = evictedMark := by
    decide
  have hassoc (front size close : String) :
      front ++ size ++ close ++ id = front ++ (size ++ (close ++ id)) := by
    rw [String.append_assoc, String.append_assoc]
  have hmessage : (Event.sessionEvicted limit id).message =
      "Session evicted (max_sessions=" ++ (Number.natural limit ++ ("): " ++ id)) :=
    hassoc _ _ _
  rw [record_of_message rfl rfl hmessage, hmark]

/-- The record of a creation is read as one. -/
theorem ofRecord?_created (id : String) :
    Change.ofRecord? (Event.sessionCreated id).record = some (.created id) := by
  rw [record_created, Change.ofRecord?, String.toList_append, behind?_append, Option.map_some,
    Option.some_or, String.ofList_toList]

/-- The record of a drop is read as one. -/
theorem ofRecord?_dropped (id : String) :
    Change.ofRecord? (Event.sessionDropped id).record = some (.dropped id) := by
  have hcreated : behind? createdMark.toList (droppedMark.toList ++ id.toList) = none :=
    behind?_of_other (by decide) (by decide)
  rw [record_dropped, Change.ofRecord?, String.toList_append, hcreated, behind?_append,
    Option.map_none, Option.none_or, Option.map_some, Option.some_or, String.ofList_toList]

/-- No digit of a number is a parenthesis, so the id of an evicted session is found behind it. -/
theorem evictedId?_append (limit : Nat) (id : List Char) :
    evictedId? (evictedMark.toList ++ ((Number.natural limit).toList ++ ("): ".toList ++ id))) =
      some id := by
  have hdigits : ∀ c ∈ Nat.toDigits 10 limit, decide (c ≠ ')') = true := by
    intro c hc
    have hdigit := Nat.isDigit_of_mem_toDigits (by decide) (by decide) hc
    refine decide_eq_true fun he => ?_
    rw [he] at hdigit
    cases hdigit
  have htext : (Number.natural limit).toList = Nat.toDigits 10 limit := String.toList_ofList
  have hstop : ("): ".toList ++ id).dropWhile (· ≠ ')') = "): ".toList ++ id := rfl
  rw [evictedId?, behind?_append, Option.bind_some, htext, List.dropWhile_append_of_pos hdigits,
    hstop, behind?_append]

/-- The record of an eviction is read as one. -/
theorem ofRecord?_evicted (limit : Nat) (id : String) :
    Change.ofRecord? (Event.sessionEvicted limit id).record = some (.evicted id) := by
  have hcreated (rest : List Char) :
      behind? createdMark.toList (evictedMark.toList ++ rest) = none :=
    behind?_of_other (by decide) (by decide)
  have hdropped (rest : List Char) :
      behind? droppedMark.toList (evictedMark.toList ++ rest) = none :=
    behind?_of_other (by decide) (by decide)
  rw [record_evicted, Change.ofRecord?, String.toList_append, String.toList_append,
    String.toList_append, hcreated, hdropped, evictedId?_append, Option.map_none, Option.map_none,
    Option.none_or, Option.none_or, Option.map_some, String.ofList_toList]

/-- Records are read one after the other. -/
theorem replay?_append (ids front back : List String) :
    replay? ids (front ++ back) = (replay? ids front).bind (replay? · back) :=
  List.foldlM_append

/-- The first record is read, and the others behind it. -/
theorem replay?_cons {change : Change} (hread : Change.ofRecord? record = some change)
    (ids records : List String) :
    replay? ids (record :: records) = (change.idsAfter? ids).bind (replay? · records) := by
  rw [replay?, List.foldlM_cons, hread]
  rfl

/-- A creation adds one session, and a drop or an eviction takes one away. -/
theorem length_idsAfter? {change : Change} (h : change.idsAfter? ids = some after) :
    ids.length + (if change.isCreated then 1 else 0) =
      after.length + (if change.isDropped then 1 else 0) +
        (if change.isEvicted then 1 else 0) := by
  have hgone {id : String} (hid : (if id ∈ ids then some (ids.erase id) else none) = some after) :
      ids.length = after.length + 1 := by
    obtain ⟨hmem, he⟩ := Option.ite_none_right_eq_some.mp hid
    rw [← Option.some.inj he, List.length_erase_add_one hmem]
  cases change with
  | created id =>
    obtain ⟨-, he⟩ := Option.ite_none_left_eq_some.mp h
    rw [← Option.some.inj he, List.length_append]
    rfl
  | dropped id => exact hgone h
  | evicted id => exact hgone h

/-- Every record adds a session or removes one. So the sessions that were there and those that were
created are those that were dropped, those that were evicted and those that are left. -/
theorem tally_of_replay? (h : replay? ids records = some after) :
    ids.length + tally Change.isCreated records =
      after.length + tally Change.isDropped records + tally Change.isEvicted records := by
  induction records generalizing ids with
  | nil =>
    cases h
    rfl
  | cons record records ih =>
    obtain ⟨next, hnext, hrest⟩ := Option.bind_eq_some_iff.mp h
    obtain ⟨change, hread, hmade⟩ := Option.bind_eq_some_iff.mp hnext
    have htally (kind : Change → Bool) : tally kind (record :: records) =
        tally kind records + if kind change then 1 else 0 := by
      rw [tally, List.filterMap_cons_some hread, List.countP_cons, tally]
    have hfirst := length_idsAfter? hmade
    have hlater := ih hrest
    rw [htally, htally, htally]
    omega

end

/-- The records of some events are those of the first and those of the others. -/
theorem records_append (threshold : Nat) (front back : List Event) :
    records threshold (front ++ back) = records threshold front ++ records threshold back := by
  rw [records, List.filter_append, List.map_append, records, records]

/-- A calculator records only details. -/
theorem records_calculator (calculator : Calculator) (own : Calculator.Action) :
    records Level.info.weight (own.events calculator) = [] := by
  rw [records, List.map_eq_nil_iff, List.filter_eq_nil_iff]
  intro event hevent
  rw [Calculator.Action.level_of_mem_events hevent]
  decide

/-- Where the ids of some sessions are known among others, the records of their eviction leave the
others. -/
theorem replay?_evicted (limit : Nat) {gone : List (String × Calculator)} {ids rest : List String}
    (h : ids.Perm (gone.map Prod.fst ++ rest)) :
    ∃ after, replay? ids (gone.map fun entry => (Event.sessionEvicted limit entry.1).record) =
      some after ∧ after.Perm rest := by
  induction gone generalizing ids with
  | nil => exact ⟨ids, rfl, h⟩
  | cons entry gone ih =>
    have hmem : entry.1 ∈ ids := h.mem_iff.mpr List.mem_cons_self
    have hrest : (ids.erase entry.1).Perm (gone.map Prod.fst ++ rest) := by
      have herase := h.erase entry.1
      rwa [List.map_cons, List.cons_append, List.erase_cons_head] at herase
    obtain ⟨after, hafter, hperm⟩ := ih hrest
    refine ⟨after, ?_, hperm⟩
    rw [List.map_cons, replay?_cons (ofRecord?_evicted limit entry.1), Change.idsAfter?,
      if_pos hmem]
    exact hafter

end Log

namespace Sessions

/-- The records of some actions in a row, without the details of calculations. -/
def log (sessions : Sessions) (actions : List Action) : List String :=
  Log.records Level.info.weight ((sessions.trace actions).flatMap fun entry => entry.2.events)

section

variable {sessions : Sessions} {id : String}

/-- The records of one action are those of its events. -/
theorem log_singleton (sessions : Sessions) (action : Action) :
    sessions.log [action] = Log.records Level.info.weight (sessions.perform action).events :=
  congrArg (Log.records _) (List.append_nil _)

/-- One more action is recorded at the end. -/
theorem log_append_singleton (start : Sessions) (actions : List Action) (action : Action) :
    start.log (actions ++ [action]) = start.log actions ++ (start.after actions).log [action] := by
  rw [log_singleton, log, trace_append_singleton, List.flatMap_append, Log.records_append, log,
    List.flatMap_singleton]

/-- Nothing is recorded where a live session is acquired. -/
theorem log_acquiring_of_mem (h : id ∈ sessions.ids) (own : Calculator.Action) :
    sessions.log [.acquiring id own] = [] := by
  rw [log_singleton, perform, acquire_of_mem h]
  exact Log.records_calculator _ own

/-- A new session is recorded, and so are those that make way for it. -/
theorem log_acquiring_of_notMem (h : id ∉ sessions.ids) (own : Calculator.Action) :
    sessions.log [.acquiring id own] = (Event.sessionCreated id).record ::
      (sessions.live.take (sessions.size + 1 - sessions.limit)).map
        fun entry => (Event.sessionEvicted sessions.limit entry.1).record := by
  rw [log_singleton, perform, acquire_of_notMem h]
  change Log.records _ (_ ++ own.events _) = _
  rw [Log.records_append, Log.records_calculator, List.append_nil, Log.records,
    List.filter_eq_self.mpr, List.map_cons, List.map_map]
  · rfl
  · rw [List.forall_mem_cons]
    refine ⟨rfl, fun event hevent => ?_⟩
    obtain ⟨entry, -, rfl⟩ := List.mem_map.mp hevent
    rfl

/-- Nothing is recorded where a session is looked up. -/
theorem log_lookingUp (sessions : Sessions) (id : String) (own : Calculator.Action) :
    sessions.log [.lookingUp id own] = [] := by
  rw [log_singleton]
  by_cases h : id ∈ sessions.ids
  · rw [perform_lookingUp h]
    exact Log.records_calculator _ own
  · rw [perform_lookingUp_missing h]
    rfl

/-- A drop is recorded if the session was live. -/
theorem log_drop_of_mem (h : id ∈ sessions.ids) :
    sessions.log [.drop id] = [(Event.sessionDropped id).record] := by
  rw [log_singleton, perform, find?_of_mem h]
  rfl

/-- Nothing is recorded where a session that is not live is to be dropped. -/
theorem log_drop_of_notMem (h : id ∉ sessions.ids) : sessions.log [.drop id] = [] := by
  rw [log_singleton, perform, find?_of_notMem h]
  rfl

/-- Whoever knows the live sessions knows them after an action by its records. -/
theorem exists_replay? (h : sessions.WellFormed) {ids : List String} (hids : ids.Perm sessions.ids)
    (action : Action) :
    ∃ after, Log.replay? ids (sessions.log [action]) = some after ∧
      after.Perm (sessions.perform action).sessions.ids := by
  cases action with
  | acquiring id own =>
    by_cases hid : id ∈ sessions.ids
    · have hacquires := acquires_live h.bounded hid own
      refine ⟨ids, ?_, ?_⟩
      · rw [log_acquiring_of_mem hid]
        rfl
      · rw [hacquires.ids_eq, ← List.nil_append (List.map _ _), ← List.map_nil,
          ← hacquires.erase_eq h.distinct]
        exact hids.trans ((List.perm_cons_erase hid).trans (List.perm_append_singleton _ _).symm)
    · have hacquires := acquires_new h.bounded hid own
      have hsplit := hacquires.erase_eq h.distinct
      rw [List.erase_of_not_mem hid] at hsplit
      have hnew : id ∉ ids := fun hmem => hid (hids.mem_iff.mp hmem)
      have hgrown := (hsplit ▸ hids).append_right [id]
      rw [List.append_assoc, ← hacquires.ids_eq] at hgrown
      obtain ⟨after, hafter, hperm⟩ := Log.replay?_evicted sessions.limit hgrown
      refine ⟨after, ?_, hperm⟩
      rw [log_acquiring_of_notMem hid, Log.replay?_cons (Log.ofRecord?_created id),
        Log.Change.idsAfter?, if_neg hnew]
      exact hafter
  | lookingUp id own =>
    refine ⟨ids, ?_, ?_⟩
    · rw [log_lookingUp]
      rfl
    · rwa [ids_lookingUp]
  | drop id =>
    rw [ids_drop h.distinct]
    by_cases hid : id ∈ sessions.ids
    · refine ⟨ids.erase id, ?_, hids.erase id⟩
      rw [log_drop_of_mem hid, Log.replay?_cons (Log.ofRecord?_dropped id), Log.Change.idsAfter?,
        if_pos (hids.mem_iff.mpr hid)]
      rfl
    · refine ⟨ids, ?_, ?_⟩
      · rw [log_drop_of_notMem hid]
        rfl
      · rwa [List.erase_of_not_mem hid]

/-- Whoever reads the records from the start on knows the live sessions. -/
theorem exists_replay?_after {start : Sessions} (hstart : start.live = []) (actions : List Action) :
    ∃ ids, Log.replay? [] (start.log actions) = some ids ∧ ids.Perm (start.after actions).ids := by
  induction actions using List.reverseRecOn with
  | nil =>
    refine ⟨[], rfl, ?_⟩
    change [].Perm (start.live.map Prod.fst)
    rw [hstart]
    exact .nil
  | append_singleton actions action ih =>
    obtain ⟨ids, hids, hperm⟩ := ih
    have hwell := (wellFormed_after hstart actions).1
    obtain ⟨after, hafter, hlive⟩ := exists_replay? hwell hperm action
    refine ⟨after, ?_, ?_⟩
    · rw [log_append_singleton, Log.replay?_append, hids]
      exact hafter
    · rwa [after_append_singleton]

end

/-- After any actions the records tell exactly which sessions are live: read one after the other,
each creates a session that is not live then or takes away one that is, and those that are left are
the live ones. So there are as many of these as were created and neither dropped nor evicted.
Acquiring a live session, looking one up, and dropping one that is not live leave no record. -/
theorem log_tells_live {limit : Int} (h : 1 ≤ limit) :
    ∃ start, empty? limit = some start ∧ ∀ actions,
      (∃ ids, Log.replay? [] (start.log actions) = some ids ∧
        ids.Perm (start.after actions).ids) ∧
      (start.after actions).ids.Nodup ∧
      Log.tally Log.Change.isCreated (start.log actions) =
        (start.after actions).size + Log.tally Log.Change.isDropped (start.log actions) +
          Log.tally Log.Change.isEvicted (start.log actions) ∧
      (∀ action, start.log (actions ++ [action]) =
        start.log actions ++ (start.after actions).log [action]) ∧
      (∀ id own, id ∈ (start.after actions).ids →
        (start.after actions).log [.acquiring id own] = []) ∧
      (∀ id own, (start.after actions).log [.lookingUp id own] = []) ∧
      ∀ id, id ∉ (start.after actions).ids → (start.after actions).log [.drop id] = [] := by
  obtain ⟨start, hempty, -, hstart⟩ := exists_empty h
  refine ⟨start, hempty, fun actions => ?_⟩
  obtain ⟨ids, hreplay, hperm⟩ := exists_replay?_after hstart actions
  refine ⟨⟨ids, hreplay, hperm⟩, (wellFormed_after hstart actions).1.distinct, ?_,
    log_append_singleton start actions, fun id own hid => log_acquiring_of_mem hid own,
    log_lookingUp _, fun id hid => log_drop_of_notMem hid⟩
  have htally := Log.tally_of_replay? hreplay
  rwa [List.length_nil, Nat.zero_add, hperm.length_eq, length_ids] at htally

/-- With room for one, a session that is evicted, dropped in vain and created again is live at the
end, alone, and the records tell it. -/
theorem log_tells_created_again :
    ∃ start, empty? 1 = some start ∧
      Log.replay? [] (start.log [.acquiring "a" .bindings, .acquiring "b" .bindings, .drop "a",
        .acquiring "a" (.evaluate "1 / 0")]) = some ["a"] := by
  obtain ⟨start, hempty, hrun⟩ := log_tells_live (by decide : (1 : Int) ≤ 1)
  obtain ⟨⟨ids, hreplay, hperm⟩, -⟩ := hrun [.acquiring "a" .bindings, .acquiring "b" .bindings,
    .drop "a", .acquiring "a" (.evaluate "1 / 0")]
  refine ⟨start, hempty, ?_⟩
  cases hempty
  have hlive : (after ⟨1, Nat.one_pos, []⟩ [.acquiring "a" .bindings, .acquiring "b" .bindings,
      .drop "a", .acquiring "a" (.evaluate "1 / 0")]).ids = ["a"] := by
    decide +kernel
  rw [hreplay, List.perm_singleton.mp (hperm.trans (.of_eq hlive))]

end Sessions

end Reckoner
