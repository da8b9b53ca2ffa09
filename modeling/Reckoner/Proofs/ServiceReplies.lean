import Reckoner.Proofs.OrderReading
import Reckoner.Proofs.ServiceRun

/-!
# Replies of the service

Each session answers as a calculator of its own that heard only what the session heard: values and
failures with their status, and variables as long as the session is live. Every number of a response
is finite. Whether a value is explained or only told makes no difference to anything but the
response that explains it.
-/

namespace Reckoner.Service

/-- The numbers of a body, apart from counts. -/
def Body.numbers : Body → List Float
  | .calculated content => content.value.toList
  | .explained content _ _ => content.value.toList
  | .bindings _ entries => entries.filterMap Prod.snd
  | _ => []

/-- What is to be told of the value that the expression of an order has. -/
def told (order : Order) (value : Float) : Calculated :=
  ⟨order.session, order.expression, if value.isFinite then some value else none,
    Number.brief value, Calculator.targetOf order.expression⟩

section

variable {service : Service} {payload : Payload} {order : Order}

/-- A value that can be told is finite. -/
theorem isFinite_of_mem_tellable {value x : Float} (h : x ∈ tellable value) :
    x.isFinite = true := by
  unfold tellable at h
  split at h
  next hfinite =>
    cases h
    exact hfinite
  next => cases h

/-- If the numbers of every body for an explanation are finite, so are those of its response. -/
theorem isFinite_of_mem_take {body : String → Explanation → Body}
    (hbody : ∀ session explanation, ∀ x ∈ (body session explanation).numbers, x.isFinite = true) :
    ∀ x ∈ (service.take payload body).response.body.numbers, x.isFinite = true := by
  cases h : readOrder payload with
  | error complaints =>
    rw [take, h]
    exact List.forall_mem_nil _
  | ok order =>
    rw [take_of_order h, fulfil_eq]
    cases (service.sessions.calculatorOf order.session).explain order.expression with
    | ok result => exact hbody order.session result.1
    | error failure => exact List.forall_mem_nil _

/-- The numbers of a response are finite. -/
theorem isFinite_of_mem_numbers (service : Service) (request : Request) :
    ∀ x ∈ (service.respond request).response.body.numbers, x.isFinite = true := by
  cases request with
  | evaluate payload =>
    exact isFinite_of_mem_take fun _ _ x hx => isFinite_of_mem_tellable (Option.mem_toList.mp hx)
  | explain payload =>
    exact isFinite_of_mem_take fun _ _ x hx => isFinite_of_mem_tellable (Option.mem_toList.mp hx)
  | bindings id =>
    rw [respond]
    split
    next =>
      split
      next calculator hfind =>
        intro x hx
        obtain ⟨entry, hentry, hvalue⟩ := List.mem_filterMap.mp hx
        obtain ⟨⟨name, value⟩, -, rfl⟩ := List.mem_map.mp hentry
        exact isFinite_of_mem_tellable hvalue
      next => exact List.forall_mem_nil _
    next => exact List.forall_mem_nil _
  | drop id =>
    rw [respond]
    split
    next => exact List.forall_mem_nil _
    next => exact List.forall_mem_nil _
  | health => exact List.forall_mem_nil _

/-- A valid order is for a session with an id. -/
theorem isEmpty_session (h : readOrder payload = .ok order) : order.session.isEmpty = false := by
  obtain ⟨expression, id⟩ := order
  rcases readOrder_eq_ok_iff.mp h with ⟨-, hempty, -⟩ | -
  · rwa [Bool.eq_false_iff, Ne, String.isEmpty_iff]
  · rfl

/-- The order of a request is read from its payload. -/
theorem exists_payload {request : Request} (h : request.order? = some order) :
    ∃ payload, readOrder payload = .ok order := by
  have hread : ∀ payload, (readOrder payload).toOption = some order →
      ∃ payload, readOrder payload = .ok order := by
    intro payload hpayload
    cases hok : readOrder payload with
    | error complaints =>
      rw [hok] at hpayload
      cases hpayload
    | ok read =>
      rw [hok] at hpayload
      cases hpayload
      exact ⟨payload, hok⟩
  cases request with
  | evaluate payload => exact hread payload h
  | explain payload => exact hread payload h
  | _ => cases h

/-- The session of an order is the one that its expression is for. -/
theorem session_of_expressionFor? {id expression : String}
    (h : order.expressionFor? id = some expression) : order.session = id := by
  rw [Order.expressionFor?] at h
  split at h
  next hid => exact hid
  next => cases h

/-- An order is answered with the result that the calculator of its session explains. -/
theorem response_of_order (h : readOrder payload = .ok order) (service : Service)
    (body : String → Explanation → Body) :
    (service.take payload body).response = responseOf (body order.session)
      ((service.sessions.calculatorOf order.session).explain order.expression) := by
  rw [take_of_order h, fulfil_eq]

/-- An explanation of a value adds to the response that tells the value, and makes no other
difference. -/
theorem respond_explain (service : Service) (payload : Payload) :
    ∃ response, service.respond (.explain payload) =
        { service.respond (.evaluate payload) with response } ∧
      (response = (service.respond (.evaluate payload)).response ∨ ∃ calculated rpn steps,
        (service.respond (.evaluate payload)).response = ⟨200, .calculated calculated⟩ ∧
        response = ⟨200, .explained calculated rpn steps⟩) := by
  rw [respond, respond]
  cases h : readOrder payload with
  | error complaints =>
    rw [take, take, h]
    exact ⟨_, rfl, .inl rfl⟩
  | ok order =>
    rw [take_of_order h, take_of_order h, fulfil_eq, fulfil_eq]
    refine ⟨_, rfl, ?_⟩
    cases (service.sessions.calculatorOf order.session).explain order.expression with
    | ok result => exact .inr ⟨_, _, _, rfl, rfl⟩
    | error failure => exact .inl rfl

/-- What a valid order is told, by the calculator of its session. -/
theorem respond_order (h : readOrder payload = .ok order) {calculator : Calculator}
    (hcalculator : service.sessions.calculatorOf order.session = calculator) :
    (∃ explanation after,
      calculator.evaluate order.expression = .ok (explanation.value, after) ∧
      calculator.explain order.expression = .ok (explanation, after) ∧
      (service.respond (.evaluate payload)).response =
        ⟨200, .calculated (told order explanation.value)⟩ ∧
      (service.respond (.explain payload)).response =
        ⟨200, .explained (told order explanation.value) (explanation.rpn.map Token.text)
          (explanation.steps.map Step.text)⟩) ∨
    ∃ failure, calculator.evaluate order.expression = .error failure ∧
      ∀ request ∈ [Request.evaluate payload, .explain payload],
        (service.respond request).response =
          ⟨if failure.kind = .syntaxError then 400 else 422, .rejected failure⟩ := by
  have hevaluate := response_of_order h service fun session explanation =>
    .calculated (calculatedOf session explanation)
  have hexplain := response_of_order h service fun session explanation =>
    .explained (calculatedOf session explanation) (explanation.rpn.map Token.text)
      (explanation.steps.map Step.text)
  rw [hcalculator] at hevaluate hexplain
  have hmap := Calculator.map_explain calculator order.expression
  cases hresult : calculator.explain order.expression with
  | error failure =>
    rw [hresult] at hevaluate hexplain hmap
    right
    refine ⟨failure, hmap.symm, fun request hrequest => ?_⟩
    rcases List.mem_pair.mp hrequest with rfl | rfl
    · exact hevaluate
    · exact hexplain
  | ok result =>
    obtain ⟨explanation, after⟩ := result
    rw [hresult] at hevaluate hexplain hmap
    obtain ⟨rpn, value, steps, -, -, rfl, -⟩ := Calculator.explain_eq_ok_iff.mp hresult
    exact .inl ⟨_, after, hmap.symm, rfl, hevaluate, hexplain⟩

/-- The variables of a session are told if the session is live, and if it is not, it is not found. -/
theorem respond_bindings {id : String} (hslash : '/' ∉ id.toList)
    (hid : id ∈ service.sessions.ids → id.isEmpty = false) :
    (id ∈ service.sessions.ids ∧ (service.respond (.bindings id)).response =
      ⟨200, .bindings id ((service.sessions.calculatorOf id).bindings.entries.map
        fun (name, value) => (name, if value.isFinite then some value else none))⟩) ∨
    id ∉ service.sessions.ids ∧
      ∃ detail, (service.respond (.bindings id)).response = ⟨404, .notFound detail⟩ := by
  by_cases hlive : id ∈ service.sessions.ids
  · left
    have hpath : hasPath id = true := by simp [hasPath, hid hlive, hslash]
    refine ⟨hlive, ?_⟩
    rw [respond, if_pos hpath, Sessions.find?_of_mem hlive]
    rfl
  · right
    refine ⟨hlive, ?_⟩
    rw [respond]
    split
    next =>
      rw [Sessions.find?_of_notMem hlive]
      exact ⟨_, rfl⟩
    next => exact ⟨_, rfl⟩

end

/-- More requests are answered by the service that some have led to. -/
theorem run_append (service : Service) (requests more : List Request) :
    service.run (requests ++ more) = service.run requests ++ (service.after requests).run more := by
  induction requests generalizing service with
  | nil => rfl
  | cons request requests ih => exact congrArg (_ :: ·) (ih _)

/-- The sessions that are live have ids. -/
theorem isEmpty_of_mem_ids {start : Service} (hstart : start.sessions.live = [])
    {requests : List Request} {id : String} (h : id ∈ (start.after requests).sessions.ids) :
    id.isEmpty = false := by
  induction requests using List.reverseRecOn with
  | nil =>
    change id ∈ start.sessions.live.map Prod.fst at h
    rw [hstart] at h
    cases h
  | append_singleton requests request ih =>
    rw [after_append_singleton, mem_ids_respond (wellFormed_after hstart requests)] at h
    rcases h with hheard | ⟨hlive, -⟩
    · obtain ⟨expression, hexpression⟩ := Option.isSome_iff_exists.mp hheard
      obtain ⟨order, horder, hsession⟩ := Option.bind_eq_some_iff.mp hexpression
      obtain ⟨payload, hread⟩ := exists_payload horder
      rw [← session_of_expressionFor? hsession]
      exact isEmpty_session hread
    · exact ih hlive

/-- The service starts without sessions, unless its log level is unknown. -/
theorem exists_start {settings : Settings} (h : 1 ≤ settings.maxSessions) :
    (∃ failure, settings.threshold = .error failure ∧ start settings = .error failure) ∨
    ∃ service threshold, settings.threshold = .ok threshold ∧
      start settings = .ok (service, threshold) ∧ service.version = settings.version ∧
      service.sessions.live = [] := by
  obtain ⟨sessions, hempty, -, hstart⟩ := Sessions.exists_empty h
  have hsessions : settings.noSessions = .ok sessions := by rw [Settings.noSessions, hempty]
  cases hthreshold : settings.threshold with
  | error failure =>
    left
    refine ⟨failure, rfl, ?_⟩
    rw [start, hthreshold]
    rfl
  | ok threshold =>
    right
    refine ⟨⟨settings.version, sessions⟩, threshold, rfl, ?_, rfl, hstart⟩
    rw [start, hthreshold, hsessions]
    rfl

/-- The service starts unless its log level is unknown. Then after any requests an expression is
answered as by a calculator that heard only what its session heard since it is live: with its value,
which is told if it is finite, or with the failure. A session tells its variables as long as it is
live, and the service how many are live. A session is live from its first expression until it is
dropped or evicted. All numbers are finite. Explaining a value instead of telling it leaves all
other replies, the events and the sessions as they are. -/
theorem replies_alone {settings : Settings} (h : 1 ≤ settings.maxSessions) :
    (∃ failure, settings.threshold = .error failure ∧ start settings = .error failure) ∨
    ∃ service threshold, settings.threshold = .ok threshold ∧
      start settings = .ok (service, threshold) ∧ ∀ requests,
      (∀ payload order, readOrder payload = .ok order →
        (∃ explanation after,
          (service.alone order.session requests).evaluate order.expression =
            .ok (explanation.value, after) ∧
          (service.alone order.session requests).explain order.expression =
            .ok (explanation, after) ∧
          ((service.after requests).respond (.evaluate payload)).response =
            ⟨200, .calculated (told order explanation.value)⟩ ∧
          ((service.after requests).respond (.explain payload)).response =
            ⟨200, .explained (told order explanation.value) (explanation.rpn.map Token.text)
              (explanation.steps.map Step.text)⟩) ∨
        ∃ failure,
          (service.alone order.session requests).evaluate order.expression = .error failure ∧
          ∀ request ∈ [Request.evaluate payload, .explain payload],
            ((service.after requests).respond request).response =
              ⟨if failure.kind = .syntaxError then 400 else 422, .rejected failure⟩) ∧
      (∀ id, '/' ∉ id.toList →
        (id ∈ (service.after requests).sessions.ids ∧
          ((service.after requests).respond (.bindings id)).response =
            ⟨200, .bindings id ((service.alone id requests).bindings.entries.map
              fun (name, value) => (name, if value.isFinite then some value else none))⟩) ∨
        id ∉ (service.after requests).sessions.ids ∧
          ∃ detail, ((service.after requests).respond (.bindings id)).response =
            ⟨404, .notFound detail⟩) ∧
      ((service.after requests).respond .health).response =
        ⟨200, .health settings.version (service.after requests).sessions.ids.length⟩ ∧
      (service.after requests).sessions.ids.Nodup ∧
      (∀ request id, id ∈ ((service.after requests).respond request).service.sessions.ids ↔
        (request.expressionFor? id).isSome ∨ id ∈ (service.after requests).sessions.ids ∧
          request.action? ≠ some (.drop id) ∧
          id ∉ Sessions.evictions ((service.after requests).respond request).events) ∧
      (∀ request, ∀ x ∈ ((service.after requests).respond request).response.body.numbers,
        x.isFinite = true) ∧
      ∀ payload more, ∃ reply response rest,
        service.run (requests ++ .evaluate payload :: more) =
          service.run requests ++ reply :: rest ∧
        service.run (requests ++ .explain payload :: more) =
          service.run requests ++ { reply with response } :: rest ∧
        (response = reply.response ∨ ∃ calculated rpn steps,
          reply.response = ⟨200, .calculated calculated⟩ ∧
          response = ⟨200, .explained calculated rpn steps⟩) := by
  rcases exists_start h with hfails | ⟨service, threshold, hthreshold, hstarted, hversion, hstart⟩
  · exact .inl hfails
  · refine .inr ⟨service, threshold, hthreshold, hstarted, fun requests => ?_⟩
    have hwell := wellFormed_after hstart requests
    have hcalculator := calculatorOf_after hstart requests
    refine ⟨fun payload order horder => respond_order horder (hcalculator order.session),
      fun id hslash => ?_, ?_, hwell.distinct, fun request id => mem_ids_respond hwell,
      isFinite_of_mem_numbers _, fun payload more => ?_⟩
    · rw [← hcalculator]
      exact respond_bindings hslash fun hlive => isEmpty_of_mem_ids hstart hlive
    · rw [respond, Sessions.length_ids, after_eq, hversion]
    · obtain ⟨response, hexplain, hresponse⟩ := respond_explain (service.after requests) payload
      refine ⟨_, response, _, run_append service requests _, ?_, hresponse⟩
      rw [run_append, run, hexplain]

/-- With room for one session, the second one takes the place of the first. -/
theorem replies_alone_evicted :
    ∃ service threshold, start { maxSessions := 1 } = .ok (service, threshold) ∧
      (∃ detail, ((service.after [.evaluate (.fields (.text "x = 1") (.text "a")),
        .explain (.fields (.text "2") (.text "b"))]).respond (.bindings "a")).response =
          ⟨404, .notFound detail⟩) ∧
      ((service.after [.evaluate (.fields (.text "x = 1") (.text "a")),
        .explain (.fields (.text "2") (.text "b"))]).respond .health).response =
          ⟨200, .health "0.1.0" 1⟩ := by
  have hstart : start { maxSessions := 1 } = .ok (⟨"0.1.0", ⟨1, Nat.one_pos, []⟩⟩, 20) :=
    start_eq_ok_iff.mpr ⟨by decide +kernel, Nat.one_pos, rfl⟩
  have hids : (after ⟨"0.1.0", ⟨1, Nat.one_pos, []⟩⟩
      [.evaluate (.fields (.text "x = 1") (.text "a")),
        .explain (.fields (.text "2") (.text "b"))]).sessions.ids = ["b"] := by
    decide +kernel
  obtain ⟨failure, -, hfails⟩ | ⟨service, threshold, -, hstarted, hrun⟩ :=
    @replies_alone { maxSessions := 1 } (by decide)
  · rw [hstart] at hfails
    cases hfails
  · obtain ⟨-, hbindings, hhealth, -⟩ := hrun [.evaluate (.fields (.text "x = 1") (.text "a")),
      .explain (.fields (.text "2") (.text "b"))]
    refine ⟨service, threshold, hstarted, ?_⟩
    rw [hstart] at hstarted
    cases hstarted
    rw [hids] at hhealth
    refine ⟨?_, hhealth⟩
    obtain ⟨hlive, -⟩ | ⟨-, hmissing⟩ := hbindings "a" (by decide)
    · rw [hids] at hlive
      exact absurd hlive (by decide)
    · exact hmissing

end Reckoner.Service
