import Reckoner.Proofs.Explanation
import Reckoner.Proofs.Isolation
import Reckoner.Service

/-!
# Runs of the service

A request does to the sessions what one action does, or nothing: a request that asks for an
expression has the calculator of its session explain it, whether the explanation is told or only
the value. So the calculator of a session is the one that a fresh calculator becomes by the
expressions that the session heard since it is live.
-/

namespace Reckoner

/-- An explanation leaves the calculator that the evaluation leaves. -/
theorem Calculator.perform_explain (calculator : Calculator) (expression : String) :
    (calculator.perform (.explain expression)).2 = calculator.after expression := by
  rw [perform, after, ← map_explain]
  cases calculator.explain expression <;> rfl

namespace Sessions

/-- The calculator that is acquired is the one of the session. -/
theorem fst_acquire (sessions : Sessions) (id : String) :
    (sessions.acquire id).1 = sessions.calculatorOf id := by
  unfold acquire calculatorOf
  cases sessions.find? id <;> rfl

/-- A calculator that is in its session already may be put there. -/
theorem put_of_forall {sessions : Sessions} {id : String} {calculator : Calculator}
    (h : ∀ entry ∈ sessions.live, entry.1 = id → entry.2 = calculator) :
    sessions.put id calculator = sessions := by
  have hlive : (sessions.live.map fun entry => if entry.1 == id then (id, calculator) else entry) =
      sessions.live := by
    conv_rhs => rw [← List.map_id sessions.live]
    refine List.map_congr_left fun entry hentry => ?_
    by_cases hid : entry.1 = id
    · rw [if_pos (beq_iff_eq.mpr hid), ← h entry hentry hid, ← hid]
      rfl
    · rw [if_neg (by simpa using hid)]
      rfl
  rw [put, hlive]

/-- The calculator of an acquired session is in the session. -/
theorem put_acquire (sessions : Sessions) (id : String) :
    (sessions.acquire id).2.1.put id (sessions.calculatorOf id) = (sessions.acquire id).2.1 := by
  refine put_of_forall fun entry hentry hid => ?_
  by_cases hlive : id ∈ sessions.ids
  · rw [acquire_of_mem hlive, List.mem_append, List.mem_singleton] at hentry
    rcases hentry with hother | rfl
    · exact absurd hid (ne_of_mem_erase hother)
    · rfl
  · rw [acquire_of_notMem hlive, List.mem_append, List.mem_singleton] at hentry
    rcases hentry with hother | rfl
    · exact absurd (List.mem_map.mpr ⟨entry, List.mem_of_mem_drop hother, hid⟩) hlive
    · rfl

end Sessions

namespace Service

/-- The order of a request, if it makes one. -/
def Request.order? : Request → Option Order
  | .evaluate payload | .explain payload => (readOrder payload).toOption
  | _ => none

/-- The expression of an order, if it is for a session. -/
def Order.expressionFor? (id : String) (order : Order) : Option String :=
  if order.session = id then some order.expression else none

/-- The expression that a request has for a session, if any. -/
def Request.expressionFor? (id : String) (request : Request) : Option String :=
  request.order?.bind (Order.expressionFor? id)

/-- What an order asks of the sessions. -/
def Order.action (order : Order) : Sessions.Action :=
  .acquiring order.session (.explain order.expression)

/-- What a request asks of the sessions, unless it changes none. -/
def Request.action? : Request → Option Sessions.Action
  | .drop id => if hasPath id then some (.drop id) else none
  | request => request.order?.map Order.action

/-- The response that tells the result of an explanation. -/
def responseOf (body : Explanation → Body) :
    Except Failure (Explanation × Calculator) → Response
  | .ok (explanation, _) => ⟨200, body explanation⟩
  | .error failure => ⟨statusOf failure, .rejected failure⟩

/-- The event of a result: that it is a failure. -/
def rejection : Except Failure (Explanation × Calculator) → List Event
  | .ok _ => []
  | .error failure => [.rejected failure]

/-- The service after some requests in a row. -/
def after (service : Service) (requests : List Request) : Service :=
  requests.foldl (fun service request => (service.respond request).service) service

/-- Some requests in a row, each with its reply. -/
def trace (service : Service) (requests : List Request) : List (Request × Reply) :=
  requests.zip (service.run requests)

/-- The expressions that some requests had for a session since the session is live. -/
def heard (start : Service) (id : String) (requests : List Request) : List String :=
  ((start.trace requests).rtakeWhile fun entry =>
    decide (id ∈ entry.2.service.sessions.ids)).filterMap (·.1.expressionFor? id)

/-- The calculator that heard only what a session heard since it is live. -/
def alone (start : Service) (id : String) (requests : List Request) : Calculator :=
  (start.heard id requests).foldl Calculator.after Calculator.fresh

/-- The service starts without sessions, with the version, the room and the log threshold that the
settings give, if there is such a threshold and some room. -/
theorem start_eq_ok_iff {settings : Settings} {service : Service} {threshold : Nat} :
    start settings = .ok (service, threshold) ↔
      Log.threshold? settings.logLevel = some threshold ∧
        ∃ hroom : 0 < settings.maxSessions.toNat,
          service = ⟨settings.version, ⟨settings.maxSessions.toNat, hroom, []⟩⟩ := by
  constructor
  · intro h
    obtain ⟨weight, hlevel, h⟩ := Outcome.bind_eq_ok_iff.mp h
    obtain ⟨sessions, hsessions, h⟩ := Outcome.bind_eq_ok_iff.mp h
    cases h
    rw [Settings.threshold] at hlevel
    rw [Settings.noSessions, Sessions.empty?] at hsessions
    split at hlevel
    next hknown =>
      cases hlevel
      split at hsessions
      next hempty =>
        split at hempty
        next hroom =>
          cases hempty
          cases hsessions
          exact ⟨hknown, hroom, rfl⟩
        next => cases hempty
      next => cases hsessions
    next => cases hlevel
  · rintro ⟨hknown, hroom, rfl⟩
    rw [start, Settings.threshold, Settings.noSessions, Sessions.empty?, hknown, dif_pos hroom]
    rfl

section

variable {service : Service} {id : String}

/-- An order has the calculator of its session explain the expression. -/
theorem fulfil_eq (service : Service) (order : Order) (body : Explanation → Body) :
    service.fulfil order body =
      let result := (service.sessions.calculatorOf order.session).explain order.expression
      let outcome := service.sessions.perform order.action
      ⟨responseOf body result, { service with sessions := outcome.sessions },
        outcome.events ++ rejection result⟩ := by
  have hfirst := Sessions.fst_acquire service.sessions order.session
  have hput := Sessions.put_acquire service.sessions order.session
  rw [fulfil, Order.action, Sessions.perform]
  generalize service.sessions.acquire order.session = acquired at hfirst hput ⊢
  obtain ⟨calculator, sessions, created⟩ := acquired
  dsimp only at hfirst hput ⊢
  rw [hfirst, Sessions.within, Calculator.perform]
  cases (service.sessions.calculatorOf order.session).explain order.expression with
  | ok result => simp only [responseOf, rejection, List.append_nil, Calculator.Action.events]
  | error failure => simp only [responseOf, rejection, Calculator.Action.events, hput]

/-- A request that asks for an expression has its order carried out. -/
theorem take_of_order {payload : Payload} {order : Order} (h : readOrder payload = .ok order)
    (service : Service) (body : String → Explanation → Body) :
    service.take payload body = service.fulfil order (body order.session) := by
  rw [take, h]

/-- A request that asks for an expression does to the sessions what its order does, whatever is told
of the explanation. -/
theorem take_service (service : Service) (payload : Payload)
    (body : String → Explanation → Body) :
    (service.take payload body).service =
        { service with
          sessions := service.sessions.after ((readOrder payload).toOption.map Order.action).toList } ∧
      Sessions.evictions (service.take payload body).events =
        ((readOrder payload).toOption.map Order.action).elim [] fun action =>
          Sessions.evictions (service.sessions.perform action).events := by
  cases h : readOrder payload with
  | error complaints =>
    rw [take, h]
    exact ⟨rfl, rfl⟩
  | ok order =>
    rw [take_of_order h, fulfil_eq]
    refine ⟨rfl, ?_⟩
    have hrejection : ∀ result, Sessions.evictions (rejection result) = [] := by
      intro result
      cases result <;> rfl
    dsimp only
    rw [Sessions.evictions, List.filterMap_append, ← Sessions.evictions, ← Sessions.evictions,
      hrejection, List.append_nil]
    rfl

/-- A request does to the sessions what its action does. -/
theorem respond_service (service : Service) (request : Request) :
    (service.respond request).service =
        { service with sessions := service.sessions.after request.action?.toList } ∧
      Sessions.evictions (service.respond request).events =
        request.action?.elim [] fun action =>
          Sessions.evictions (service.sessions.perform action).events := by
  cases request with
  | evaluate payload => exact take_service service payload _
  | explain payload => exact take_service service payload _
  | bindings id =>
    rw [respond]
    split
    next =>
      split
      next => exact ⟨rfl, rfl⟩
      next => exact ⟨rfl, rfl⟩
    next => exact ⟨rfl, rfl⟩
  | drop id =>
    rw [respond, Request.action?]
    split
    next => exact ⟨rfl, rfl⟩
    next => exact ⟨rfl, rfl⟩
  | health => exact ⟨rfl, rfl⟩

/-- An order is what its request asks of the sessions. -/
theorem action?_of_order {request : Request} {order : Order} (h : request.order? = some order) :
    request.action? = some order.action := by
  cases request with
  | evaluate payload => exact congrArg (Option.map Order.action) h
  | explain payload => exact congrArg (Option.map Order.action) h
  | _ => cases h

/-- A request without an order drops a session or asks nothing of the sessions. -/
theorem action?_of_no_order {request : Request} (h : request.order? = none) :
    request.action? = none ∨ ∃ other, request.action? = some (.drop other) := by
  cases request with
  | evaluate payload => exact .inl (congrArg (Option.map Order.action) h)
  | explain payload => exact .inl (congrArg (Option.map Order.action) h)
  | drop other =>
    rw [Request.action?]
    split
    next => exact .inr ⟨other, rfl⟩
    next => exact .inl rfl
  | _ => exact .inl rfl

/-- A request acquires a session exactly if it has an expression for it. -/
theorem acquires_iff {request : Request} :
    (∃ action, request.action? = some action ∧ action.acquires id = true) ↔
      (request.expressionFor? id).isSome := by
  rw [Request.expressionFor?]
  cases h : request.order? with
  | some order =>
    rw [action?_of_order h]
    by_cases hid : order.session = id <;>
      simp [Order.action, Order.expressionFor?, Sessions.Action.acquires, hid]
  | none =>
    rcases action?_of_no_order h with hnone | ⟨other, hdrop⟩
    · simp [hnone]
    · simp [hdrop, Sessions.Action.acquires]

/-- A session is live if a request has an expression for it, and stays so unless it is dropped or
evicted. -/
theorem mem_ids_respond (h : service.sessions.WellFormed) {request : Request} :
    id ∈ (service.respond request).service.sessions.ids ↔
      (request.expressionFor? id).isSome ∨ id ∈ service.sessions.ids ∧
        request.action? ≠ some (.drop id) ∧
          id ∉ Sessions.evictions (service.respond request).events := by
  obtain ⟨hservice, hevictions⟩ := respond_service service request
  rw [hservice, hevictions, ← acquires_iff]
  cases request.action? with
  | none => simp [Sessions.after]
  | some action => simpa [Sessions.after] using Sessions.mem_ids_perform h

/-- The calculator of a session that is live becomes what it hears. -/
theorem calculatorOf_respond (h : service.sessions.WellFormed) {request : Request}
    (hlive : id ∈ (service.respond request).service.sessions.ids) :
    (service.respond request).service.sessions.calculatorOf id =
      (request.expressionFor? id).toList.foldl Calculator.after
        (service.sessions.calculatorOf id) := by
  rw [(respond_service service request).1] at hlive ⊢
  rw [Request.expressionFor?]
  cases horder : request.order? with
  | some order =>
    rw [action?_of_order horder] at hlive ⊢
    change (service.sessions.perform order.action).sessions.calculatorOf id =
      (order.expressionFor? id).toList.foldl Calculator.after (service.sessions.calculatorOf id)
    rw [Sessions.calculatorOf_perform h hlive, Order.action, Order.expressionFor?,
      Sessions.Action.asks?]
    by_cases hid : order.session = id
    · rw [if_pos hid, if_pos hid]
      exact Calculator.perform_explain _ _
    · rw [if_neg hid, if_neg hid]
      rfl
  | none =>
    rcases action?_of_no_order horder with hnone | ⟨other, hdrop⟩
    · rw [hnone]
      rfl
    · rw [hdrop] at hlive ⊢
      exact Sessions.calculatorOf_perform h hlive

end

section

variable {start : Service} {id : String}

/-- One more request is answered by the service at the end. -/
theorem after_append_singleton (start : Service) (requests : List Request) (request : Request) :
    start.after (requests ++ [request]) = ((start.after requests).respond request).service :=
  List.foldl_append

/-- One more request has its reply at the end. -/
theorem trace_append_singleton (start : Service) (requests : List Request) (request : Request) :
    start.trace (requests ++ [request]) =
      start.trace requests ++ [(request, (start.after requests).respond request)] :=
  zip_run_append_singleton run respond (fun service request => (service.respond request).service)
    (fun _ => rfl) (fun _ _ _ => rfl) start requests request

/-- A run does to the sessions what its actions do, and changes nothing else. -/
theorem after_eq (start : Service) (requests : List Request) :
    start.after requests =
      { start with sessions := start.sessions.after (requests.filterMap Request.action?) } := by
  induction requests using List.reverseRecOn with
  | nil => rfl
  | append_singleton requests request ih =>
    rw [after_append_singleton, (respond_service _ request).1, ih, List.filterMap_append]
    cases h : request.action? <;> simp [Sessions.after, h]

/-- One more request adds its expression for a session that is live then. -/
theorem heard_append_singleton (start : Service) (id : String) (requests : List Request)
    (request : Request) :
    start.heard id (requests ++ [request]) =
      if id ∈ (start.after (requests ++ [request])).sessions.ids then
        start.heard id requests ++ (request.expressionFor? id).toList
      else [] := by
  unfold heard
  rw [trace_append_singleton, List.rtakeWhile_concat, after_append_singleton]
  by_cases hlive : id ∈ ((start.after requests).respond request).service.sessions.ids
  · rw [if_pos hlive, if_pos (decide_eq_true hlive), List.filterMap_append]
    cases h : request.expressionFor? id <;> simp [h]
  · rw [if_neg hlive, if_neg (by simp [hlive])]
    rfl

/-- After any requests from the start the sessions are distinct and within the limit. -/
theorem wellFormed_after (hstart : start.sessions.live = []) (requests : List Request) :
    (start.after requests).sessions.WellFormed := by
  rw [after_eq]
  exact (Sessions.wellFormed_after hstart _).1

/-- The calculator of a session, live or not, is the one that heard only what the session heard. -/
theorem calculatorOf_after (hstart : start.sessions.live = []) (requests : List Request)
    (id : String) : (start.after requests).sessions.calculatorOf id = start.alone id requests := by
  induction requests using List.reverseRecOn with
  | nil =>
    change (start.sessions.live.lookup id).getD Calculator.fresh = Calculator.fresh
    rw [hstart]
    rfl
  | append_singleton requests request ih =>
    rw [alone, heard_append_singleton]
    by_cases hlive : id ∈ (start.after (requests ++ [request])).sessions.ids
    · rw [if_pos hlive, List.foldl_append, ← alone, ← ih]
      rw [after_append_singleton] at hlive ⊢
      exact calculatorOf_respond (wellFormed_after hstart requests) hlive
    · rw [if_neg hlive, Sessions.calculatorOf, Sessions.find?_of_notMem hlive]
      rfl

end

end Service

end Reckoner
