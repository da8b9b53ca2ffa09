import Reckoner.Proofs.Recency
import Reckoner.Proofs.ServiceReplies

/-!
# Requests that are rejected

A request whose body does not suit changes nothing. One whose expression fails acquires its session
before, and that is all it does: the session has the variables it had, the other sessions stay as
they are and in their order, and at most one makes way, the one acquired the longest ago, for a new
session where there is no room. The log tells of the rejection in one warning.
-/

namespace Reckoner

/-- Acquiring a session and calculating in it is no cause for a warning. -/
theorem Sessions.level_of_mem_acquiring {sessions : Sessions} {id expression : String}
    {event : Event}
    (h : event ∈ (sessions.perform (.acquiring id (.explain expression))).events) :
    event.level ≠ .warning := by
  have hcreated : ∀ event ∈ (sessions.acquire id).2.2, event.level = .info := by
    unfold acquire
    split
    next => exact List.forall_mem_nil _
    next =>
      rw [List.forall_mem_cons]
      refine ⟨rfl, fun event hevent => ?_⟩
      obtain ⟨entry, -, rfl⟩ := List.mem_map.mp hevent
      rfl
  change event ∈ (sessions.acquire id).2.2 ++ (sessions.acquire id).1.events expression at h
  rcases List.mem_append.mp h with h | h
  · simp [hcreated event h]
  · simp [Calculator.level_of_mem_events h]

/-- Sessions with the same limit are told apart by what is live. -/
theorem Sessions.eq_of_live {sessions other : Sessions} (hlimit : sessions.limit = other.limit)
    (hlive : sessions.live = other.live) : sessions = other := by
  cases sessions
  cases other
  cases hlimit
  cases hlive
  rfl

namespace Service

/-- A rejected expression, by the reply to its request. Of the other sessions those in `gone` made
way, those in `kept` stayed. -/
structure Rejects (before : Service) (reply : Reply) (id : String) (failure : Failure)
    (gone kept : List (String × Calculator)) (earlier : List Event) : Prop where
  /-- The response tells the failure. -/
  response : reply.response = ⟨if failure.kind = .syntaxError then 400 else 422, .rejected failure⟩
  /-- The sessions that made way were in front of all others. -/
  split : (before.sessions.erase id).live = gone ++ kept
  /-- The others stay as they were. The session comes last and has the variables that it had, or
  none if it is new. -/
  service : reply.service = { before with
    sessions.live := kept ++ [(id, before.sessions.calculatorOf id)] }
  /-- At most one session made way. -/
  few : gone.length ≤ 1
  /-- There was room for the session behind those that stayed. -/
  room : kept.length < before.sessions.limit
  /-- It made way for a new one only, and only if there was no room. -/
  full : gone ≠ [] → id ∉ before.sessions.ids ∧ before.sessions.size = before.sessions.limit
  /-- The rejection is the last event. -/
  events : reply.events = earlier ++ [.rejected failure]
  /-- No event before it is a warning. -/
  quiet : ∀ event ∈ earlier, event.level ≠ .warning

section

variable {service : Service} {payload : Payload} {order : Order} {failure : Failure}

/-- A request that asks for an expression has its order taken. -/
theorem exists_body {request : Request} (h : request ∈ [Request.evaluate payload, .explain payload])
    (service : Service) : ∃ body, service.respond request = service.take payload body := by
  rcases List.mem_pair.mp h with rfl | rfl
  · exact ⟨_, by rw [respond]⟩
  · exact ⟨_, by rw [respond]⟩

/-- An expression that has a value succeeds. -/
theorem status_of_order (hread : readOrder payload = .ok order) {result : Float × Calculator}
    (hvalue : (service.sessions.calculatorOf order.session).evaluate order.expression = .ok result)
    (body : String → Explanation → Body) : (service.take payload body).response.status = 200 := by
  rw [← Calculator.map_explain] at hvalue
  obtain ⟨explained, hexplain, -⟩ := Outcome.map_eq_ok_iff.mp hvalue
  rw [response_of_order hread, hexplain]
  rfl

/-- An expression that fails only has its session acquired. -/
theorem exists_rejects (hwell : service.sessions.WellFormed) (hread : readOrder payload = .ok order)
    (hfails : (service.sessions.calculatorOf order.session).evaluate order.expression =
      .error failure) (body : String → Explanation → Body) :
    ∃ gone kept earlier,
      Rejects service (service.take payload body) order.session failure gone kept earlier := by
  obtain ⟨gone, kept, hacquires⟩ :=
    Sessions.exists_acquires hwell order.session (.explain order.expression)
  have hexplain := Calculator.explain_eq_error_iff.mpr hfails
  have hkeeps : ((service.sessions.calculatorOf order.session).perform
      (.explain order.expression)).2 = service.sessions.calculatorOf order.session := by
    rw [Calculator.perform, hexplain]
  -- the calculator put back is the one that was acquired, so nothing but the order changes
  have hlive := hacquires.live
  rw [hkeeps] at hlive
  refine ⟨gone, kept, (service.sessions.perform order.action).events, ?_⟩
  rw [take_of_order hread, fulfil_eq, hexplain]
  refine ⟨rfl, hacquires.split, ?_, hacquires.few, hacquires.room, hacquires.full, rfl, ?_⟩
  · exact congrArg (Service.mk service.version) (Sessions.eq_of_live hacquires.limit hlive)
  · exact fun event hevent => Sessions.level_of_mem_acquiring hevent

/-- The log shows a rejection as one warning, unless warnings are left out. -/
theorem Rejects.records {before : Service} {reply : Reply} {id : String}
    {gone kept : List (String × Calculator)} {earlier : List Event}
    (h : Rejects before reply id failure gone kept earlier) (threshold : Nat) :
    Log.records threshold reply.events = Log.records threshold earlier ++
      if threshold ≤ Level.warning.weight then
        ["WARNING:shunt_calc:" ++
          ("Rejected expression (" ++ failure.kind.name ++ "): " ++ failure.message)]
      else [] := by
  have hrecord : (Event.rejected failure).record = "WARNING:shunt_calc:" ++
      ("Rejected expression (" ++ failure.kind.name ++ "): " ++ failure.message) := by
    have hfront : "WARNING" ++ ":" ++ "shunt_calc" ++ ":" = "WARNING:shunt_calc:" := by decide
    rw [← hfront]
    rfl
  rw [h.events, Log.records, List.filter_append, List.map_append, ← Log.records, ← hrecord]
  by_cases hshown : threshold ≤ Level.warning.weight <;> simp [Event.level, hshown]

/-- A session that made way is the one acquired the longest ago. -/
theorem Rejects.mem_since {start : Service} {requests : List Request} {reply : Reply}
    {id old other : String} {gone kept : List (String × Calculator)} {earlier : List Event}
    (h : Rejects (start.after requests) reply id failure gone kept earlier)
    (hstart : start.sessions.live = []) (hold : old ∈ gone.map Prod.fst)
    (hother : other ∈ (start.after requests).sessions.ids) (hne : other ≠ old) :
    other ∈ Sessions.acquisitions (Sessions.since old (requests.filterMap Request.action?)) := by
  have horder := Sessions.pairwise_since hstart (requests.filterMap Request.action?)
  have hids : (start.after requests).sessions.ids =
      (start.sessions.after (requests.filterMap Request.action?)).ids := by
    rw [after_eq]
  rw [← hids] at horder
  -- the new session was not live, so what made way stands in front of the whole row
  have hsplit := h.split
  match gone, h.few, h.full with
  | [entry], _, hfull =>
    cases List.mem_singleton.mp hold
    rw [Sessions.erase_of_notMem (hfull (List.cons_ne_nil _ _)).1] at hsplit
    rw [Sessions.ids, hsplit] at hother horder
    rcases List.mem_cons.mp hother with rfl | hrest
    · exact absurd rfl hne
    · exact (List.pairwise_cons.mp horder).1 other hrest

end

/-- A service starts without sessions and with as much room as the settings give. -/
theorem sessions_of_start {settings : Settings} {service : Service} {threshold : Nat}
    (h : start settings = .ok (service, threshold)) :
    service.sessions.live = [] ∧ (service.sessions.limit : Int) = settings.maxSessions := by
  obtain ⟨-, hroom, rfl⟩ := start_eq_ok_iff.mp h
  exact ⟨rfl, Int.toNat_of_nonneg (by omega)⟩

/-- After any requests a body is unfit or asks for an expression in a session. If it is unfit, the
request is answered with complaints and nothing happens. Otherwise it succeeds, or the expression
fails and is rejected: its session has the variables that it had before and is the last one, the
others stay as they are, and only for want of room the one acquired the longest ago makes way for a
new one. The log tells of it in one warning. -/
theorem rejects_without_damage {settings : Settings} {service : Service} {level : Nat}
    (h : start settings = .ok (service, level)) (requests : List Request) (payload : Payload) :
    ((service.after requests).sessions.limit : Int) = settings.maxSessions ∧
    (payload.Unfit ∨ ∃ expression id, payload.Asks expression id) ∧
    ∀ request ∈ [Request.evaluate payload, .explain payload],
      (payload.Unfit → ∃ complaints, (service.after requests).respond request =
        ⟨⟨422, .invalid complaints⟩, service.after requests, []⟩) ∧
      ∀ expression id, payload.Asks expression id →
        (∃ value after, ((service.after requests).sessions.calculatorOf id).evaluate expression =
            .ok (value, after) ∧
          ((service.after requests).respond request).response.status = 200) ∨
        ∃ failure gone kept earlier,
          ((service.after requests).sessions.calculatorOf id).evaluate expression =
            .error failure ∧
          Rejects (service.after requests) ((service.after requests).respond request) id failure
            gone kept earlier ∧
          (∀ old ∈ gone.map Prod.fst, ∀ other ∈ (service.after requests).sessions.ids,
            other ≠ old → other ∈
              Sessions.acquisitions (Sessions.since old (requests.filterMap Request.action?))) ∧
          ∀ threshold, Log.records threshold ((service.after requests).respond request).events =
            Log.records threshold earlier ++
              if threshold ≤ Level.warning.weight then
                ["WARNING:shunt_calc:" ++
                  ("Rejected expression (" ++ failure.kind.name ++ "): " ++ failure.message)]
              else [] := by
  obtain ⟨hstart, hlimit⟩ := sessions_of_start h
  have hwell := wellFormed_after hstart requests
  refine ⟨?_, unfit_or_asks payload, fun request hrequest => ?_⟩
  · rw [after_eq, ← hlimit]
    exact congrArg Int.ofNat (Sessions.wellFormed_after hstart _).2
  obtain ⟨body, hbody⟩ := exists_body hrequest (service.after requests)
  rw [hbody]
  refine ⟨fun hunfit => ?_, fun expression id hasks => ?_⟩
  · obtain ⟨complaints, hread⟩ := readOrder_fails_iff.mpr hunfit
    refine ⟨complaints, ?_⟩
    rw [take, hread]
  · have hread : readOrder payload = .ok ⟨expression, id⟩ := readOrder_eq_ok_iff.mpr hasks
    cases hresult : ((service.after requests).sessions.calculatorOf id).evaluate expression with
    | ok result =>
      exact .inl ⟨result.1, result.2, rfl, status_of_order hread hresult body⟩
    | error failure =>
      obtain ⟨gone, kept, earlier, hrejects⟩ := exists_rejects hwell hread hresult body
      exact .inr ⟨failure, gone, kept, earlier, rfl, hrejects,
        fun old hold other hother => hrejects.mem_since hstart hold hother, hrejects.records⟩

/-- With room for one session, a new one takes the place of another even if its first expression is
rejected, but not if the body has no fields. -/
theorem rejects_in_new_session :
    ∃ service level, start { maxSessions := 1 } = .ok (service, level) ∧
      (service.after [.evaluate (.fields (.text "x = 1") (.text "a"))]).sessions.ids = ["a"] ∧
      ((service.after [.evaluate (.fields (.text "x = 1") (.text "a"))]).respond
        (.evaluate (.fields (.text "x / 0") (.text "b")))).response =
          ⟨422, .rejected (.unknownIdentifier "x")⟩ ∧
      ((service.after [.evaluate (.fields (.text "x = 1") (.text "a"))]).respond
        (.evaluate (.fields (.text "x / 0") (.text "b")))).service.sessions.live =
          [("b", Calculator.fresh)] ∧
      ((service.after [.evaluate (.fields (.text "x = 1") (.text "a"))]).respond
        (.explain .fieldless)).service.sessions.ids = ["a"] := by
  have hstart : start { maxSessions := 1 } = .ok (⟨"0.1.0", ⟨1, Nat.one_pos, []⟩⟩, 20) :=
    start_eq_ok_iff.mpr ⟨by decide +kernel, Nat.one_pos, rfl⟩
  have hids : (after ⟨"0.1.0", ⟨1, Nat.one_pos, []⟩⟩
      [.evaluate (.fields (.text "x = 1") (.text "a"))]).sessions.ids = ["a"] := by
    decide +kernel
  have hfresh : (after ⟨"0.1.0", ⟨1, Nat.one_pos, []⟩⟩
      [.evaluate (.fields (.text "x = 1") (.text "a"))]).sessions.calculatorOf "b" =
        Calculator.fresh := by
    rw [Sessions.calculatorOf, Sessions.find?_of_notMem (by rw [hids]; decide)]
    rfl
  have hfails : Calculator.fresh.evaluate "x / 0" = .error (.unknownIdentifier "x") := by
    with_unfolding_all rfl
  refine ⟨_, _, hstart, hids, ?_⟩
  obtain ⟨-, -, hfieldless⟩ := rejects_without_damage hstart
    [.evaluate (.fields (.text "x = 1") (.text "a"))] .fieldless
  obtain ⟨complaints, hinvalid⟩ :=
    (hfieldless _ (List.mem_cons_of_mem _ List.mem_cons_self)).1 .fieldless
  rw [hinvalid]
  obtain ⟨hlimit, -, hrequests⟩ := rejects_without_damage hstart
    [.evaluate (.fields (.text "x = 1") (.text "a"))] (.fields (.text "x / 0") (.text "b"))
  obtain ⟨-, hasked⟩ := hrequests _ List.mem_cons_self
  rcases hasked _ _ (.named (by decide) (by decide) (by decide)) with
    ⟨value, after, hvalue, -⟩ | ⟨failure, gone, kept, earlier, hfailure, hrejects, -⟩
  · rw [hfresh, hfails] at hvalue
    cases hvalue
  · rw [hfresh, hfails] at hfailure
    cases hfailure
    have hroom := hrejects.room
    rw [Int.natCast_inj.mp hlimit, Nat.lt_one_iff, List.length_eq_zero_iff] at hroom
    refine ⟨hrejects.response, ?_, hids⟩
    rw [hrejects.service, hroom, hfresh]
    rfl

end Service

end Reckoner
