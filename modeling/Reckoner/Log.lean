import Reckoner.Calculator
import Reckoner.Text.UpperCase

/-!
# The log

What is worth recording about a calculation, a session or the service. Events are values: each
operation that has some returns them in their order, and the log level decides which are shown.
-/

namespace Reckoner

/-- How much an event matters. -/
inductive Level where
  /-- Details of a calculation. -/
  | debug
  /-- The life of sessions and of the service. -/
  | info
  /-- Rejected requests. -/
  | warning
  deriving DecidableEq, Repr

/-- The name of a level. -/
def Level.name : Level → String
  | .debug => "DEBUG"
  | .info => "INFO"
  | .warning => "WARNING"

/-- The weight of a level. -/
def Level.weight : Level → Nat
  | .debug => 10
  | .info => 20
  | .warning => 30

/-- Something that the log may tell. -/
inductive Event where
  /-- Tokens were put into reverse Polish order. -/
  | arranged (rpn : List Token)
  /-- An expression was made ready for evaluation. -/
  | prepared (expression : String) (rpn : List Token)
  /-- A variable was assigned. -/
  | assigned (name : String) (value : Float)
  /-- A session was created. -/
  | sessionCreated (id : String)
  /-- A session was evicted for want of room. -/
  | sessionEvicted (limit : Nat) (id : String)
  /-- A session was dropped on demand. -/
  | sessionDropped (id : String)
  /-- The service has started. -/
  | serviceReady
  /-- The service stops, with some sessions still live. -/
  | serviceStopping (live : Nat)
  /-- A request was refused because its expression failed. -/
  | rejected (failure : Failure)

namespace Event

/-- The level of an event. -/
def level : Event → Level
  | .arranged _ => .debug
  | .prepared _ _ => .debug
  | .assigned _ _ => .debug
  | .sessionCreated _ => .info
  | .sessionEvicted _ _ => .info
  | .sessionDropped _ => .info
  | .serviceReady => .info
  | .serviceStopping _ => .info
  | .rejected _ => .warning

/-- The part of the program that an event comes from. -/
def channel : Event → String
  | .arranged _ => "shunt_calc.converter"
  | .prepared _ _ => "shunt_calc.calculator"
  | .assigned _ _ => "shunt_calc.calculator"
  | .sessionCreated _ => "shunt_calc.sessions"
  | .sessionEvicted _ _ => "shunt_calc.sessions"
  | .sessionDropped _ => "shunt_calc.sessions"
  | .serviceReady => "shunt_calc"
  | .serviceStopping _ => "shunt_calc"
  | .rejected _ => "shunt_calc"

/-- What an event says. -/
def message : Event → String
  | .arranged rpn => "postfix: " ++ Token.joinTexts rpn
  | .prepared expression rpn => Text.quoted expression ++ " → " ++ Token.joinTexts rpn
  | .assigned name value => "Assigned " ++ name ++ " = " ++ Number.full value
  | .sessionCreated id => "Session created: " ++ id
  | .sessionEvicted limit id =>
    "Session evicted (max_sessions=" ++ Number.natural limit ++ "): " ++ id
  | .sessionDropped id => "Session dropped: " ++ id
  | .serviceReady => "ShuntCalc API ready."
  | .serviceStopping live => "Shutting down — dropping " ++ Number.natural live ++ " session(s)."
  | .rejected failure => "Rejected expression (" ++ failure.kind.name ++ "): " ++ failure.message

/-- The record of an event: its level, where it comes from, and what it says. -/
def record (event : Event) : String :=
  event.level.name ++ ":" ++ event.channel ++ ":" ++ event.message

end Event

namespace Log

/-- The names of log levels, with the weight from which events are shown. -/
def thresholds : List (String × Nat) :=
  [("DEBUG", 10), ("INFO", 20), ("WARNING", 30), ("WARN", 30), ("ERROR", 40), ("CRITICAL", 50),
    ("FATAL", 50), ("NOTSET", 0)]

/-- The weight from which events are shown, by the name of a log level in any case. -/
def threshold? (name : String) : Option Nat :=
  thresholds.lookup (Text.upperCase name)

/-- The records of the events that a threshold lets through. -/
def records (threshold : Nat) (events : List Event) : List String :=
  (events.filter (threshold ≤ ·.level.weight)).map Event.record

end Log

namespace Calculator

/-- The events of evaluating or explaining an expression. -/
def events (calculator : Calculator) (expression : String) : List Event :=
  match prepare expression with
  | .error _ => []
  | .ok prepared =>
    [.arranged prepared.rpn, .prepared expression prepared.rpn] ++
      match prepared.target, Reckoner.evaluate calculator.bindings prepared.rpn with
      | some name, .ok value => [.assigned name value]
      | _, _ => []

/-- The events of an action. -/
def Action.events (calculator : Calculator) : Action → List Event
  | .evaluate expression => calculator.events expression
  | .explain expression => calculator.events expression
  | .bindings => []
  | .reset => []
  | .editCopy _ _ => []

end Calculator

end Reckoner
