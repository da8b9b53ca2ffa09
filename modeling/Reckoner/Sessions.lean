import Reckoner.Log

/-!
# Sessions

Each session has a calculator of its own. A limited number of sessions is live; a new one takes
the place of the session whose last use lies back the furthest. Acquiring a session counts as a
use and creates the session if it is not live. Looking a session up does neither.
-/

namespace Reckoner

/-- The live sessions and their limit. -/
structure Sessions where
  /-- How many sessions may be live. -/
  limit : Nat
  /-- There is room for a session. -/
  limit_pos : 0 < limit
  /-- The live sessions by their ids, the one acquired last at the end. -/
  live : List (String × Calculator)

namespace Sessions

/-- No sessions, with room for a number of them. -/
def empty? (limit : Int) : Option Sessions :=
  if h : 0 < limit.toNat then some ⟨limit.toNat, h, []⟩ else none

/-- The number of live sessions. -/
def size (sessions : Sessions) : Nat :=
  sessions.live.length

/-- The calculator of a live session. -/
def find? (sessions : Sessions) (id : String) : Option Calculator :=
  sessions.live.lookup id

/-- The sessions without one of them. -/
def erase (sessions : Sessions) (id : String) : Sessions :=
  { sessions with live := sessions.live.filter (·.1 != id) }

/-- The sessions with another calculator in a live session. -/
def put (sessions : Sessions) (id : String) (calculator : Calculator) : Sessions :=
  { sessions with
    live := sessions.live.map fun entry => if entry.1 == id then (id, calculator) else entry }

/-- The calculator of a session, which is created if it is not live and is then the last one
acquired, and the sessions and the events after it. -/
def acquire (sessions : Sessions) (id : String) : Calculator × Sessions × List Event :=
  match sessions.find? id with
  | some calculator =>
    (calculator, { sessions with live := (sessions.erase id).live ++ [(id, calculator)] }, [])
  | none =>
    let grown := sessions.live ++ [(id, Calculator.fresh)]
    let excess := grown.length - sessions.limit
    (Calculator.fresh, { sessions with live := grown.drop excess },
      .sessionCreated id ::
        (grown.take excess).map fun entry => .sessionEvicted sessions.limit entry.1)

/-- What the sessions may be asked to do. -/
inductive Action where
  /-- To acquire a session and have its calculator do something. -/
  | acquiring (id : String) (action : Calculator.Action)
  /-- To look a session up and have its calculator do something. -/
  | lookingUp (id : String) (action : Calculator.Action)
  /-- To drop a session. -/
  | drop (id : String)

/-- What the sessions answer. -/
inductive Answer where
  /-- The answer of a calculator, and its variables then. -/
  | answered (answer : Calculator.Answer) (bindings : Bindings)
  /-- That a session is not live. -/
  | missing (id : String)
  /-- Whether there was a session to drop. -/
  | dropped (found : Bool)

/-- An answer with what came about. -/
structure Outcome where
  /-- The answer. -/
  answer : Answer
  /-- The sessions then. -/
  sessions : Sessions
  /-- The events on the way. -/
  events : List Event

/-- That a session is not live, as a message. -/
def missingMessage (id : String) : String :=
  "Session not found: " ++ id

/-- Has the calculator of a live session do something, behind earlier events. -/
def within (sessions : Sessions) (id : String) (calculator : Calculator)
    (action : Calculator.Action) (earlier : List Event) : Outcome :=
  let (answer, after) := calculator.perform action
  ⟨.answered answer after.bindings, sessions.put id after, earlier ++ action.events calculator⟩

/-- The outcome of an action. -/
def perform (sessions : Sessions) : Action → Outcome
  | .acquiring id action =>
    let (calculator, sessions, events) := sessions.acquire id
    sessions.within id calculator action events
  | .lookingUp id action =>
    match sessions.find? id with
    | some calculator => sessions.within id calculator action []
    | none => ⟨.missing id, sessions, []⟩
  | .drop id =>
    match sessions.find? id with
    | some _ => ⟨.dropped true, sessions.erase id, [.sessionDropped id]⟩
    | none => ⟨.dropped false, sessions, []⟩

/-- The outcomes of some actions in a row. -/
def run (sessions : Sessions) : List Action → List Outcome
  | [] => []
  | action :: actions =>
    sessions.perform action :: run (sessions.perform action).sessions actions

end Sessions

end Reckoner
