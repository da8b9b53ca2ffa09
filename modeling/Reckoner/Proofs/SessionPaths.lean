import Reckoner.Proofs.ServiceReplies

/-!
# The paths of sessions

An expression that succeeds leaves its session live, whatever the id of the session is. The requests
that look at a session or drop it name it by a part of their path, and an id with a slash is no part
of a path. So these two reach the sessions whose ids have no slash, and miss the others although
they are live.
-/

namespace Reckoner

/-- The session that is acquired has its calculator. -/
theorem Sessions.find?_acquire (sessions : Sessions) (id : String) :
    (sessions.acquire id).2.1.find? id = some (sessions.calculatorOf id) := by
  by_cases hlive : id ∈ sessions.ids
  · rw [acquire_of_mem hlive]
    exact lookup_last (fun entry hentry => ne_of_mem_erase hentry) _
  · rw [acquire_of_notMem hlive]
    refine lookup_last (fun entry hentry hid => hlive ?_) _
    exact List.mem_map.mpr ⟨entry, List.mem_of_mem_drop hentry, hid⟩

/-- The session that is acquired has the calculator that has answered. -/
theorem Sessions.find?_acquiring (sessions : Sessions) (id : String) (own : Calculator.Action) :
    (sessions.perform (.acquiring id own)).sessions.find? id =
      some ((sessions.calculatorOf id).perform own).2 := by
  change ((sessions.acquire id).2.1.put id ((sessions.acquire id).1.perform own).2).find? id = _
  rw [find?_put, if_pos rfl, find?_acquire, fst_acquire]
  rfl

namespace Service

section

variable {service : Service} {id : String}

/-- An id has a path if it is not empty and has no slash. -/
theorem hasPath_iff : hasPath id = true ↔ id ≠ "" ∧ '/' ∉ id.toList := by
  simp [hasPath]

/-- A session without a path is not found. -/
theorem respond_of_no_path (h : hasPath id = false) {request : Request}
    (hrequest : request ∈ [Request.bindings id, .drop id]) :
    service.respond request = ⟨⟨404, .notFound "Not Found"⟩, service, []⟩ := by
  rcases List.mem_pair.mp hrequest with rfl | rfl
  · rw [respond, h, if_neg Bool.false_ne_true]
  · rw [respond, h, if_neg Bool.false_ne_true]

/-- A session with a path tells the variables of its calculator. -/
theorem respond_bindings_of_path (h : hasPath id = true) {calculator : Calculator}
    (hfind : service.sessions.find? id = some calculator) :
    service.respond (.bindings id) =
      ⟨⟨200, .bindings id (calculator.bindings.entries.map fun (name, value) =>
        (name, if value.isFinite then some value else none))⟩, service, []⟩ := by
  rw [respond, if_pos h, hfind]
  rfl

/-- A session with a path is dropped. -/
theorem respond_drop_of_path (h : hasPath id = true) {calculator : Calculator}
    (hfind : service.sessions.find? id = some calculator) :
    service.respond (.drop id) =
      ⟨⟨200, .dropped id true⟩, { service with sessions := service.sessions.erase id },
        [.sessionDropped id]⟩ := by
  rw [respond, if_pos h, Sessions.perform, hfind]
  rfl

/-- An expression that succeeds leaves its session with the variables that it leaves. -/
theorem find?_of_evaluate {payload : Payload} {expression : String}
    (hasks : payload.Asks expression id)
    (hstatus : (service.respond (.evaluate payload)).response.status = 200) :
    ∃ value calculator,
      (service.sessions.calculatorOf id).evaluate expression = .ok (value, calculator) ∧
      (service.respond (.evaluate payload)).service.sessions.find? id = some calculator := by
  have hread : readOrder payload = .ok ⟨expression, id⟩ := readOrder_eq_ok_iff.mpr hasks
  have hcalculator := Calculator.map_explain (service.sessions.calculatorOf id) expression
  rw [respond, take_of_order hread, fulfil_eq] at hstatus ⊢
  dsimp only at hstatus ⊢
  rw [Order.action, Sessions.find?_acquiring, Calculator.perform]
  cases hexplain : (service.sessions.calculatorOf id).explain expression with
  | error failure =>
    -- a failure has the status of a bad request or of one that cannot be processed
    rw [hexplain] at hstatus
    change statusOf failure = 200 at hstatus
    unfold statusOf at hstatus
    split at hstatus
    next => cases hstatus
    next => cases hstatus
  | ok result =>
    rw [hexplain] at hcalculator
    exact ⟨_, result.2, hcalculator.symm, rfl⟩

end

/-- A session in which an expression succeeded is live. If its id has no slash, a look at it tells
the variables that the expression left, and dropping it takes it, and no other session, away. If
its id has a slash, both are answered as if there were no such thing, and the session stays. -/
theorem reaches_unless_slash {service created : Service} {payload : Payload}
    {expression id : String} {body : Body} {events : List Event}
    (hasks : payload.Asks expression id)
    (hreply : service.respond (.evaluate payload) = ⟨⟨200, body⟩, created, events⟩) :
    ∃ value calculator,
      (service.sessions.calculatorOf id).evaluate expression = .ok (value, calculator) ∧
      created.sessions.find? id = some calculator ∧
      ('/' ∉ id.toList →
        created.respond (.bindings id) =
          ⟨⟨200, .bindings id (calculator.bindings.entries.map fun (name, value) =>
            (name, if value.isFinite then some value else none))⟩, created, []⟩ ∧
        ∃ dropped, created.respond (.drop id) =
            ⟨⟨200, .dropped id true⟩, dropped, [.sessionDropped id]⟩ ∧
          ∀ other, dropped.sessions.find? other =
            if other = id then none else created.sessions.find? other) ∧
      ('/' ∈ id.toList → ∀ request ∈ [Request.bindings id, .drop id],
        created.respond request = ⟨⟨404, .notFound "Not Found"⟩, created, []⟩) := by
  have hstatus : (service.respond (.evaluate payload)).response.status = 200 := by rw [hreply]
  obtain ⟨value, calculator, hvalue, hfind⟩ := find?_of_evaluate hasks hstatus
  rw [hreply] at hfind
  refine ⟨value, calculator, hvalue, hfind, fun hslash => ?_, fun hslash => ?_⟩
  · have hempty : id ≠ "" := by
      rcases hasks with ⟨-, hempty, -⟩ | -
      · exact hempty
      · decide
    have hpath := hasPath_iff.mpr ⟨hempty, hslash⟩
    exact ⟨respond_bindings_of_path hpath hfind, _, respond_drop_of_path hpath hfind,
      Sessions.find?_erase created.sessions id⟩
  · have hpath : hasPath id = false := by
      rw [Bool.eq_false_iff, Ne, hasPath_iff]
      exact fun h => h.2 hslash
    exact fun request hrequest => respond_of_no_path hpath hrequest

/-- A session whose id has a slash is live after its first expression, but can neither be looked at
nor dropped. -/
theorem reaches_no_slash :
    ∃ body created events calculator,
      (Service.mk "0.1.0" ⟨1, Nat.one_pos, []⟩).respond
        (.evaluate (.fields (.text "v=3") (.text "a/b"))) = ⟨⟨200, body⟩, created, events⟩ ∧
      created.sessions.find? "a/b" = some calculator ∧
      created.respond (.bindings "a/b") = ⟨⟨404, .notFound "Not Found"⟩, created, []⟩ ∧
      created.respond (.drop "a/b") = ⟨⟨404, .notFound "Not Found"⟩, created, []⟩ := by
  have hstatus : ((Service.mk "0.1.0" ⟨1, Nat.one_pos, []⟩).respond
      (.evaluate (.fields (.text "v=3") (.text "a/b")))).response.status = 200 := by
    decide +kernel
  obtain ⟨body, created, events, hreply⟩ : ∃ body created events,
      (Service.mk "0.1.0" ⟨1, Nat.one_pos, []⟩).respond
        (.evaluate (.fields (.text "v=3") (.text "a/b"))) = ⟨⟨200, body⟩, created, events⟩ :=
    ⟨_, _, _, by rw [← hstatus]⟩
  have hasks : Payload.Asks (.fields (.text "v=3") (.text "a/b")) "v=3" "a/b" :=
    .named (by decide) (by decide) (by decide)
  obtain ⟨value, calculator, -, hfind, -, hmissing⟩ := reaches_unless_slash hasks hreply
  have hslash := hmissing (by decide)
  exact ⟨body, created, events, calculator, hreply, hfind, hslash _ List.mem_cons_self,
    hslash _ (List.mem_cons_of_mem _ List.mem_cons_self)⟩

end Service

end Reckoner
