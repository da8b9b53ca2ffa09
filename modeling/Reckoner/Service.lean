import Reckoner.Settings

/-!
# The service

Answers requests over sessions. An expression is evaluated or explained in its session, a session
tells its variables or is dropped, and the service tells its health. Each response carries a status
code. Numbers in responses are finite; a value that is not is left out, and its text stands in the
display.
-/

namespace Reckoner

/-- A running service. -/
structure Service where
  /-- The version it reports. -/
  version : String
  /-- Its sessions. -/
  sessions : Sessions

namespace Service

/-- A field of a request that asks for an expression. -/
inductive Field where
  /-- There is no such field. -/
  | absent
  /-- The field holds something that is no text. -/
  | notText
  /-- The field holds a text. -/
  | text (text : String)
  deriving DecidableEq, Repr

/-- The body of a request that asks for an expression. -/
inductive Payload where
  /-- There is no body. -/
  | absent
  /-- The body has no fields. -/
  | fieldless
  /-- The two fields that matter. -/
  | fields (expression session : Field)
  deriving DecidableEq, Repr

/-- A request. -/
inductive Request where
  /-- Evaluate an expression. -/
  | evaluate (payload : Payload)
  /-- Evaluate an expression and explain its value. -/
  | explain (payload : Payload)
  /-- Tell the variables of a session. -/
  | bindings (id : String)
  /-- Drop a session. -/
  | drop (id : String)
  /-- Tell the health of the service. -/
  | health
  deriving DecidableEq, Repr

/-- What is wrong with a part of a request. -/
inductive Fault where
  /-- It is missing. -/
  | missing
  /-- It should have fields. -/
  | fieldless
  /-- It should be a text. -/
  | notText
  /-- It is too long. -/
  | tooLong
  /-- It is too short. -/
  | tooShort
  deriving DecidableEq, Repr

/-- The name of a fault. -/
def Fault.name : Fault → String
  | .missing => "missing"
  | .fieldless => "model_attributes_type"
  | .notText => "string_type"
  | .tooLong => "string_too_long"
  | .tooShort => "string_too_short"

/-- A fault and where in the request it is. -/
structure Complaint where
  /-- The fault. -/
  fault : Fault
  /-- The path to the part at fault. -/
  location : List String
  deriving DecidableEq, Repr

/-- An expression for a session. -/
structure Order where
  /-- The expression. -/
  expression : String
  /-- The id of the session. -/
  session : String
  deriving DecidableEq, Repr

/-- What a response tells of a calculated expression. -/
structure Calculated where
  /-- The id of the session. -/
  session : String
  /-- The expression. -/
  expression : String
  /-- The value, if it is finite. -/
  value : Option Float
  /-- The value as text. -/
  display : String
  /-- The name that the value was assigned to. -/
  assigned : Option String

/-- The body of a response. -/
inductive Body where
  /-- A calculated expression. -/
  | calculated (calculated : Calculated)
  /-- A calculated expression, its tokens in reverse Polish order, and the steps. -/
  | explained (calculated : Calculated) (rpn steps : List String)
  /-- The variables of a session; a value that is not finite is left out. -/
  | bindings (session : String) (entries : List (String × Option Float))
  /-- Whether there was a session to drop. -/
  | dropped (session : String) (found : Bool)
  /-- The health of the service. -/
  | health (version : String) (sessions : Nat)
  /-- Why an expression was rejected. -/
  | rejected (failure : Failure)
  /-- That something is not there. -/
  | notFound (detail : String)
  /-- What is wrong with the request. -/
  | invalid (complaints : List Complaint)

/-- A response. -/
structure Response where
  /-- The status code. -/
  status : Nat
  /-- The body. -/
  body : Body

/-- A response with what came about. -/
structure Reply where
  /-- The response. -/
  response : Response
  /-- The service then. -/
  service : Service
  /-- The events on the way. -/
  events : List Event

/-- The most characters of an expression. -/
def expressionLimit : Nat := 10000

/-- The most characters of a session id. -/
def idLimit : Nat := 128

/-- The session of requests that name none. -/
def defaultSession : String := "default"

/-- The text of a field with bounds on its length, or what is wrong with it. -/
def readText (shortest longest : Nat) : Field → Except Fault String
  | .absent => .error .missing
  | .notText => .error .notText
  | .text text =>
    if text.length < shortest then .error .tooShort
    else if longest < text.length then .error .tooLong
    else .ok text

/-- The expression of a request. -/
def readExpression (field : Field) : Except Fault String :=
  readText 0 expressionLimit field

/-- The session id of a request. -/
def readSession : Field → Except Fault String
  | .absent => .ok defaultSession
  | field => readText 1 idLimit field

/-- The complaint about a field, if there is one. -/
def complaintsAbout (field : String) : Except Fault String → List Complaint
  | .ok _ => []
  | .error fault => [⟨fault, ["body", field]⟩]

/-- The order of a request, or all that is wrong with it. -/
def readOrder : Payload → Except (List Complaint) Order
  | .absent => .error [⟨.missing, ["body"]⟩]
  | .fieldless => .error [⟨.fieldless, ["body"]⟩]
  | .fields expression session =>
    match readExpression expression, readSession session with
    | .ok expression, .ok session => .ok ⟨expression, session⟩
    | expression, session =>
      .error (complaintsAbout "expression" expression ++ complaintsAbout "session_id" session)

/-- A value for a response: only finite values can be told. -/
def tellable (value : Float) : Option Float :=
  if value.isFinite then some value else none

/-- The status code of a failure: bad parentheses are a bad request, and all else is an expression
that cannot be processed. -/
def statusOf (failure : Failure) : Nat :=
  if failure.kind = .syntaxError then 400 else 422

/-- The part of a response that evaluated and explained expressions share. -/
def calculatedOf (session : String) (explanation : Explanation) : Calculated :=
  { session
    expression := explanation.expression
    value := tellable explanation.value
    display := Number.brief explanation.value
    assigned := explanation.assigned }

/-- Whether a session id has a path of its own: it fills one part of a path. -/
def hasPath (id : String) : Bool :=
  !id.isEmpty && !id.contains '/'

/-- Carries out an order; `body` makes the body of the response from the explanation. -/
def fulfil (service : Service) (order : Order) (body : Explanation → Body) : Reply :=
  let (calculator, sessions, created) := service.sessions.acquire order.session
  let events := created ++ calculator.events order.expression
  match calculator.explain order.expression with
  | .ok (explanation, calculator) =>
    ⟨⟨200, body explanation⟩, { service with sessions := sessions.put order.session calculator },
      events⟩
  | .error failure =>
    ⟨⟨statusOf failure, .rejected failure⟩, { service with sessions := sessions },
      events ++ [.rejected failure]⟩

/-- Reads the order of a request and carries it out. -/
def take (service : Service) (payload : Payload) (body : String → Explanation → Body) : Reply :=
  match readOrder payload with
  | .ok order => service.fulfil order (body order.session)
  | .error complaints => ⟨⟨422, .invalid complaints⟩, service, []⟩

/-- The reply to a request. -/
def respond (service : Service) : Request → Reply
  | .evaluate payload =>
    service.take payload fun session explanation =>
      .calculated (calculatedOf session explanation)
  | .explain payload =>
    service.take payload fun session explanation =>
      .explained (calculatedOf session explanation) (explanation.rpn.map Token.text)
        (explanation.steps.map Step.text)
  | .bindings id =>
    if hasPath id then
      match service.sessions.find? id with
      | some calculator =>
        ⟨⟨200, .bindings id (calculator.bindings.entries.map fun (name, value) =>
          (name, tellable value))⟩, service, []⟩
      | none => ⟨⟨404, .notFound (Sessions.missingMessage id)⟩, service, []⟩
    else ⟨⟨404, .notFound "Not Found"⟩, service, []⟩
  | .drop id =>
    if hasPath id then
      let outcome := service.sessions.perform (.drop id)
      let found := (service.sessions.find? id).isSome
      ⟨⟨200, .dropped id found⟩, { service with sessions := outcome.sessions }, outcome.events⟩
    else ⟨⟨404, .notFound "Not Found"⟩, service, []⟩
  | .health => ⟨⟨200, .health service.version service.sessions.size⟩, service, []⟩

/-- The replies to some requests in a row. -/
def run (service : Service) : List Request → List Reply
  | [] => []
  | request :: requests =>
    service.respond request :: run (service.respond request).service requests

/-- The service at its start, and the threshold of its log. The log level is looked at before the
room for sessions. -/
def start (settings : Settings) : Except StartFailure (Service × Nat) := do
  let threshold ← settings.threshold
  let sessions ← settings.noSessions
  return (⟨settings.version, sessions⟩, threshold)

/-- The events of the start. -/
def startEvents : List Event := [.serviceReady]

/-- The events of the stop. -/
def stopEvents (service : Service) : List Event :=
  [.serviceStopping service.sessions.size]

end Service

end Reckoner
