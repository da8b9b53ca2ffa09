import Reckoner.Proofs.DialogueRun
import Reckoner.Proofs.RecordLines
import Reckoner.Proofs.RejectedRequest

/-!
# One line for each failure

What a dialogue answers, what a batch complains of and what the service logs of rejections are texts
of lines. None of the lines holds a line end, so a reader of the text finds one line for each
failure, and the others as they were written.
-/

namespace Reckoner

open Text

/-! ## The dialogue -/

namespace Dialogue

/-- The answers are the lines of the output. -/
theorem answers_eq_ofLines (dialogue : Dialogue) :
    dialogue.answers = ofLines (dialogue.output.filterMap Output.line?) := by
  rw [answers]
  induction dialogue.output with
  | nil => rfl
  | cons piece output ih =>
    cases piece with
    | prompt text => exact ih
    | line text =>
      have hline : (Output.line text :: output).filterMap Output.line? =
          text :: output.filterMap Output.line? := rfl
      rw [List.filter_cons_of_pos rfl, Batch.answers_cons, ih, hline, ofLines_cons]
      rfl
    | _ =>
      rw [List.filter_cons_of_pos rfl, Batch.answers_cons, ih]
      exact String.empty_append

/-- A line of the answers tells one outcome, and nothing else stands in them. -/
theorem batchLines_answers (settings : Settings) (calculator : Calculator) (lines : List String) :
    batchLines (run settings calculator lines).answers =
      (calculator.outcomes (asked settings lines)).map told ++
        if lines.any (isExit settings) then [] else [""] := by
  rw [answers_eq_ofLines, (recounts_run settings calculator lines).answers, batchLines_ofLines]
  intro line hline
  rcases List.mem_append.mp hline with hline | hline
  · obtain ⟨outcome, houtcome, rfl⟩ := List.mem_map.mp hline
    cases outcome with
    | ok value => exact (inert_of_printable (Number.every_brief value)).line
    | error failure => exact Failure.every_notice (Calculator.inert_of_mem_outcomes houtcome)
  · split at hline
    · cases hline
    · rw [List.mem_singleton.mp hline]
      decide

end Dialogue

/-! ## Batches -/

namespace Output

/-- The lines that a piece of output writes to the stream of complaints, at a log threshold. -/
def complaintLines (threshold : Nat) : Output → List String
  | .complaint text => [text]
  | .logged event => Log.records threshold [event]
  | _ => []

/-- The stream of complaints is made of these lines. -/
theorem complaints_eq_ofLines (threshold : Nat) (output : List Output) :
    complaints threshold output = ofLines (output.flatMap (complaintLines threshold)) := by
  induction output with
  | nil => rfl
  | cons piece output ih =>
    rw [Batch.complaints_cons, ih, List.flatMap_cons, ofLines_append]
    cases piece with
    | complaint text =>
      have hone : ofLines [text] = text ++ "\n" := (ofLines_cons text []).trans String.append_empty
      rw [complaintLines, hone]
      rfl
    | _ => rfl

end Output

/-- The lines of complaint of a batch hold no line ends. -/
theorem Batch.every_complaintLines {calculator : Calculator} {expressions : List String}
    {threshold : Nat} {line : String}
    (h : line ∈ (run calculator expressions).output.flatMap (Output.complaintLines threshold)) :
    Every keepsLine line := by
  have hlogged {calculator : Calculator} {expression : String} {line : String}
      (h : line ∈ ((calculator.events expression).map Output.logged).flatMap
        (Output.complaintLines threshold)) : Every keepsLine line := by
    obtain ⟨piece, hpiece, hline⟩ := List.mem_flatMap.mp h
    obtain ⟨event, hevent, rfl⟩ := List.mem_map.mp hpiece
    obtain ⟨shown, hshown, rfl⟩ := List.mem_map.mp hline
    rw [List.mem_singleton.mp (List.mem_of_mem_filter hshown)]
    exact Calculator.every_record hevent
  induction expressions generalizing calculator with
  | nil => cases h
  | cons expression rest ih =>
    rw [run] at h
    cases hevaluate : calculator.evaluate expression with
    | ok answer =>
      rw [hevaluate] at h
      rw [List.flatMap_append, List.mem_append, List.flatMap_cons] at h
      exact h.elim hlogged ih
    | error failure =>
      rw [hevaluate] at h
      rw [List.flatMap_append, List.mem_append, List.flatMap_cons, List.mem_append] at h
      rcases h with hevents | hnotice | hrest
      · exact hlogged hevents
      · rw [List.mem_singleton.mp hnotice]
        exact Failure.every_notice (Calculator.inert_of_evaluate hevaluate)
      · exact ih hrest

namespace CommandLine

/-- The expressions of a batch: the arguments, or those of the input if there are none. -/
def given (expressions : List String) (input : String) : List String :=
  if expressions.isEmpty then inputExpressions input else expressions

/-- A batch of some expressions is carried out by a fresh calculator. -/
theorem runEval_of_given {expressions : List String} {input : String}
    (h : given expressions input ≠ []) :
    runEval expressions input =
      ⟨(Batch.run Calculator.fresh (given expressions input)).status,
        (Batch.run Calculator.fresh (given expressions input)).output⟩ := by
  have hsome : ¬ (given expressions input).isEmpty = true := by simpa using h
  rw [runEval]
  exact if_neg hsome

/-- The stream of complaints has the lines of the complaints and of the log. -/
theorem batchLines_complaints {expressions : List String} {input : String}
    (h : given expressions input ≠ []) (threshold : Nat) :
    batchLines (Output.complaints threshold (runEval expressions input).output) =
      (runEval expressions input).output.flatMap (Output.complaintLines threshold) := by
  rw [runEval_of_given h, Output.complaints_eq_ofLines]
  exact batchLines_ofLines fun line hline => Batch.every_complaintLines hline

/-- Where the log does not show the details of a calculation, it has the lines of the failures. -/
theorem batchLines_notices {expressions : List String} {input : String}
    (h : given expressions input ≠ []) {threshold : Nat}
    (hquiet : Level.debug.weight < threshold) :
    batchLines (Output.complaints threshold (runEval expressions input).output) =
      (Calculator.fresh.outcomes (given expressions input)).filterMap Batch.notice? := by
  rw [runEval_of_given h, (Batch.tallies_run _ _).complaints threshold hquiet]
  refine batchLines_ofLines fun line hline => ?_
  obtain ⟨outcome, houtcome, hline⟩ := List.mem_filterMap.mp hline
  cases outcome with
  | ok value => cases hline
  | error failure =>
    cases hline
    exact Failure.every_notice (Calculator.inert_of_mem_outcomes houtcome)

end CommandLine

/-! ## The log of the service -/

/-- The failure that an event tells a rejection of, if it does. -/
def Event.rejected? : Event → Option Failure
  | .rejected failure => some failure
  | _ => none

/-- The text of the log of some events, at a threshold. -/
def Log.text (threshold : Nat) (events : List Event) : String :=
  ofLines (records threshold events)

/-- The warnings in the log are the records of the rejections. -/
theorem Log.records_warning (events : List Event) :
    records Level.warning.weight events =
      (events.filterMap Event.rejected?).map fun failure => (Event.rejected failure).record := by
  induction events with
  | nil => rfl
  | cons event events ih =>
    rw [← List.singleton_append, records, List.filter_append, List.map_append, ← records,
      ← records, ih, List.filterMap_append, List.map_append]
    cases event <;> rfl

/-- A rejection is recorded without line ends if the message holds none. -/
theorem Failure.every_rejection {failure : Failure} (h : Inert failure.message) :
    Every keepsLine (Event.rejected failure).record := by
  have hfront : Every keepsLine "Rejected expression (" := by decide
  have hback : Every keepsLine "): " := by decide
  have hkind : Every keepsLine failure.kind.name := by
    cases failure.kind <;> decide
  exact Event.every_record (((hfront.append hkind).append hback).append h.line)

namespace Service

/-- The failure that a reply rejects an expression for, if it does. -/
def Reply.rejected? (reply : Reply) : Option Failure :=
  match reply.response.body with
  | .rejected failure => some failure
  | _ => none

/-- The failure of the expression that a request asks for, if it asks for one that fails. -/
def failure? (service : Service) (request : Request) : Option Failure :=
  request.order?.bind fun order =>
    Outcome.failure? <|
      (service.sessions.calculatorOf order.session).evaluate order.expression

section

variable {service : Service} {request : Request} {failure : Failure}

/-- Acquiring a session and calculating in it tells of no rejection. -/
theorem filterMap_rejected?_acquiring (sessions : Sessions) (order : Order) :
    (sessions.perform order.action).events.filterMap Event.rejected? = [] := by
  rw [List.filterMap_eq_nil_iff]
  intro event hevent
  have hlevel := Sessions.level_of_mem_acquiring hevent
  cases event with
  | rejected failure => exact absurd rfl hlevel
  | _ => rfl

/-- An order is rejected for the failure of its expression, if it fails, and one event tells it. -/
theorem fulfil_rejected {order : Order} {body : Explanation → Body}
    (hbody : ∀ explanation failure, body explanation ≠ .rejected failure) :
    let failed := Outcome.failure? <|
      (service.sessions.calculatorOf order.session).evaluate order.expression
    (service.fulfil order body).rejected? = failed ∧
      (service.fulfil order body).events.filterMap Event.rejected? = failed.toList := by
  have hquiet := filterMap_rejected?_acquiring service.sessions order
  dsimp only
  rw [fulfil_eq, ← Calculator.map_explain]
  dsimp only
  rw [List.filterMap_append, hquiet, List.nil_append]
  cases (service.sessions.calculatorOf order.session).explain order.expression with
  | error failure => exact ⟨rfl, rfl⟩
  | ok result =>
    refine ⟨?_, rfl⟩
    rw [Reply.rejected?]
    split
    next failure hrejected => exact absurd hrejected (hbody _ failure)
    next => rfl

/-- A request that asks for an expression is rejected for its failure. -/
theorem take_rejected (service : Service) {payload : Payload} {body : String → Explanation → Body}
    (hbody : ∀ session explanation failure, body session explanation ≠ .rejected failure) :
    let failed := (readOrder payload).toOption.bind fun order =>
      Outcome.failure? <|
        (service.sessions.calculatorOf order.session).evaluate order.expression
    (service.take payload body).rejected? = failed ∧
      (service.take payload body).events.filterMap Event.rejected? = failed.toList := by
  cases h : readOrder payload with
  | error complaints =>
    rw [take, h]
    exact ⟨rfl, rfl⟩
  | ok order =>
    rw [take_of_order h]
    exact fulfil_rejected (hbody order.session)

/-- A request is rejected for the failure of its expression, and for nothing else, and one event
tells it. -/
theorem respond_rejected (service : Service) (request : Request) :
    (service.respond request).rejected? = service.failure? request ∧
      (service.respond request).events.filterMap Event.rejected? =
        (service.failure? request).toList := by
  cases request with
  | evaluate payload => exact take_rejected service nofun
  | explain payload => exact take_rejected service nofun
  | bindings id =>
    rw [respond]
    split
    next => split <;> exact ⟨rfl, rfl⟩
    next => exact ⟨rfl, rfl⟩
  | drop id =>
    rw [respond]
    split
    next =>
      refine ⟨rfl, ?_⟩
      rw [Sessions.perform]
      split <;> rfl
    next => exact ⟨rfl, rfl⟩
  | health => exact ⟨rfl, rfl⟩

/-- A rejection has a message that is shown as it is. -/
theorem inert_of_failure? (h : service.failure? request = some failure) :
    Inert failure.message := by
  obtain ⟨order, -, hfails⟩ := Option.bind_eq_some_iff.mp h
  exact Calculator.inert_of_evaluate (Outcome.failure?_eq_some_iff.mp hfails)

/-- Wherever the log shows warnings, a rejection takes one line of it. -/
theorem batchLines_rejection (h : service.failure? request = some failure) {threshold : Nat}
    (hshown : threshold ≤ Level.warning.weight) :
    batchLines (Log.text threshold [.rejected failure]) = [(Event.rejected failure).record] := by
  have hrecords : Log.records threshold [.rejected failure] =
      [(Event.rejected failure).record] := by
    simp [Log.records, Event.level, hshown]
  rw [Log.text, hrecords]
  refine batchLines_ofLines fun line hline => ?_
  rw [List.mem_singleton.mp hline]
  exact Failure.every_rejection (inert_of_failure? h)

/-- Over a run one event tells each rejection, in the order of the requests. -/
theorem run_rejected (service : Service) (requests : List Request) :
    ((service.run requests).flatMap Reply.events).filterMap Event.rejected? =
      (service.run requests).filterMap Reply.rejected? := by
  induction requests generalizing service with
  | nil => rfl
  | cons request requests ih =>
    obtain ⟨hreply, hevents⟩ := respond_rejected service request
    rw [run, List.flatMap_cons, List.filterMap_append, hevents, ih, List.filterMap_cons, hreply]
    cases service.failure? request <;> rfl

/-- Every reply of a run that rejects an expression has a message that is shown as it is. -/
theorem inert_of_mem_run {requests : List Request} {reply : Reply}
    (h : reply ∈ service.run requests) (hrejected : reply.rejected? = some failure) :
    Inert failure.message := by
  induction requests generalizing service with
  | nil => cases h
  | cons request requests ih =>
    rw [run, List.mem_cons] at h
    rcases h with rfl | hrest
    · rw [(respond_rejected service request).1] at hrejected
      exact inert_of_failure? hrejected
    · exact ih hrest

/-- The warnings in the log of a run are one line for each rejection. -/
theorem batchLines_log (service : Service) (requests : List Request) :
    batchLines (Log.text Level.warning.weight ((service.run requests).flatMap Reply.events)) =
      ((service.run requests).filterMap Reply.rejected?).map
        fun failure => (Event.rejected failure).record := by
  rw [Log.text, Log.records_warning, run_rejected]
  refine batchLines_ofLines fun line hline => ?_
  obtain ⟨failure, hfailure, rfl⟩ := List.mem_map.mp hline
  obtain ⟨reply, hreply, hrejected⟩ := List.mem_filterMap.mp hfailure
  exact Failure.every_rejection (inert_of_mem_run hreply hrejected)

end

end Service

/-- The message of every expression that fails, and of all tokens that cannot be evaluated, is shown
as it is: it has no control, no format character, no blank but the space and no line end. So a
dialogue answers each failure with one line, and a batch complains of it in one line, whatever else
the log shows. The service logs each expression that it rejects in one line, and its warnings have
no other lines. -/
theorem failures_fill_one_line :
    (∀ (calculator : Calculator) text failure,
      calculator.evaluate text = .error failure → Inert failure.message) ∧
    (∀ bindings rpn failure, evaluate bindings rpn = .error failure → Inert failure.message) ∧
    (∀ settings calculator lines,
      batchLines (Dialogue.run settings calculator lines).answers =
        (calculator.outcomes (Dialogue.asked settings lines)).map Dialogue.told ++
          if lines.any (Dialogue.isExit settings) then [] else [""]) ∧
    (∀ expressions input, CommandLine.given expressions input ≠ [] →
      let output := (CommandLine.runEval expressions input).output
      let notices := (Calculator.fresh.outcomes
        (CommandLine.given expressions input)).filterMap Batch.notice?
      output.filterMap Output.complaint? = notices ∧
      (∀ threshold, batchLines (Output.complaints threshold output) =
        output.flatMap (Output.complaintLines threshold)) ∧
      ∀ threshold, Level.debug.weight < threshold →
        batchLines (Output.complaints threshold output) = notices) ∧
    ∀ (service : Service),
      (∀ request, (service.respond request).rejected? = service.failure? request ∧
        (service.respond request).events.filterMap Event.rejected? =
          (service.failure? request).toList ∧
        ∀ failure ∈ service.failure? request, ∀ threshold ≤ Level.warning.weight,
          batchLines (Log.text threshold [.rejected failure]) =
            [(Event.rejected failure).record]) ∧
      ∀ requests, batchLines (Log.text Level.warning.weight
          ((service.run requests).flatMap Service.Reply.events)) =
        ((service.run requests).filterMap Service.Reply.rejected?).map
          fun failure => (Event.rejected failure).record := by
  refine ⟨fun _ _ _ => Calculator.inert_of_evaluate, fun _ _ _ => inert_of_evaluate,
    Dialogue.batchLines_answers, fun expressions input hgiven => ⟨?_, ?_, ?_⟩,
    fun service => ⟨fun request => ?_, Service.batchLines_log service⟩⟩
  · rw [CommandLine.runEval_of_given hgiven]
    exact (Batch.tallies_run Calculator.fresh _).notices
  · exact CommandLine.batchLines_complaints hgiven
  · exact fun threshold => CommandLine.batchLines_notices hgiven
  · obtain ⟨hreply, hevents⟩ := Service.respond_rejected service request
    exact ⟨hreply, hevents, fun failure hfails threshold => Service.batchLines_rejection hfails⟩

/-- An escape character among the signs, and a line feed in the text of a token. -/
theorem failures_fill_one_line_controls :
    (Failure.unknownOperator "\x1b").message = "Unknown operator: '\\x1b'" ∧
    Inert (Failure.unknownOperator "\x1b").message ∧
    Inert (Failure.unknownIdentifier "a\nb").message ∧
    CommandLine.given ["2 \x1b \u202e"] "" ≠ [] ∧
    batchLines (Output.complaints 20 (CommandLine.runEval ["2 \x1b \u202e"] "").output) =
      ["Error: Unknown operator: '\\x1b'"] := by
  have hsign : Calculator.fresh.evaluate "2 \x1b \u202e" = .error (.unknownOperator "\x1b") := by
    with_unfolding_all rfl
  have hname : evaluate Bindings.empty [.identifier "a\nb"] =
      .error (.unknownIdentifier "a\nb") := by
    with_unfolding_all rfl
  have hgiven : CommandLine.given ["2 \x1b \u202e"] "" ≠ [] := List.cons_ne_nil _ _
  obtain ⟨htext, htokens, -, hbatch, -⟩ := failures_fill_one_line
  obtain ⟨-, -, hquiet⟩ := hbatch _ _ hgiven
  refine ⟨by decide, htext _ _ _ hsign, htokens _ _ _ hname, hgiven, ?_⟩
  rw [hquiet 20 (by decide)]
  change (Calculator.fresh.outcomes ["2 \x1b \u202e"]).filterMap Batch.notice? = _
  rw [Calculator.outcomes_cons, hsign]
  decide

end Reckoner
