import Reckoner.Number.Reading
import Reckoner.Sessions

/-!
# Settings

What the user may choose. A setting comes from a value given directly, else from the environment
variable of its name, else from a default. The names of environment variables are matched in any
case.
-/

namespace Reckoner

/-- The choices of the user. -/
structure Settings where
  /-- The name of the log level. -/
  logLevel : String := "INFO"
  /-- What the dialogue writes before it reads a line. -/
  prompt : String := "> "
  /-- The line that ends the dialogue. -/
  exitCommand : String := "exit"
  /-- How many sessions may be live. -/
  maxSessions : Int := 1000
  /-- The title of the program. -/
  title : String := "ShuntCalc"
  /-- The version of the program. -/
  version : String := "0.1.0"
  deriving DecidableEq, Repr

namespace Settings

/-- The fields of the settings. -/
inductive Field where
  /-- The name of the log level. -/
  | logLevel
  /-- What the dialogue writes before it reads a line. -/
  | prompt
  /-- The line that ends the dialogue. -/
  | exitCommand
  /-- How many sessions may be live. -/
  | maxSessions
  /-- The title of the program. -/
  | title
  /-- The version of the program. -/
  | version
  deriving DecidableEq, Repr

/-- The name of a field. -/
def Field.name : Field → String
  | .logLevel => "log_level"
  | .prompt => "repl_prompt"
  | .exitCommand => "exit_command"
  | .maxSessions => "max_sessions"
  | .title => "app_title"
  | .version => "app_version"

/-- The environment variable of a field, in lower case. -/
def Field.environmentName (field : Field) : String :=
  "shunt_calc_" ++ field.name

/-- A value given for a field. -/
inductive Value where
  /-- A text. -/
  | text (text : String)
  /-- A whole number. -/
  | whole (n : Int)
  /-- A number that is not whole. -/
  | fractional
  /-- Anything else. -/
  | other
  deriving DecidableEq, Repr

/-- Why a value does not suit its field. -/
inductive Problem where
  /-- A text was wanted. -/
  | notText
  /-- A whole number was wanted, and the value is no number. -/
  | notNumber
  /-- A whole number was wanted, and the value is not whole. -/
  | notWhole
  /-- A whole number was wanted, and the text does not write one. -/
  | notReadable
  deriving DecidableEq, Repr

/-- The name of a problem. -/
def Problem.name : Problem → String
  | .notText => "string_type"
  | .notNumber => "int_type"
  | .notWhole => "int_from_float"
  | .notReadable => "int_parsing"

/-- The blanks that may surround a whole number. -/
def isNumberPadding (c : Char) : Bool :=
  Text.isBlank c && !(0x1C ≤ c.toNat && c.toNat ≤ 0x1F)

/-- Whether characters are a fraction of zeros, with its point in front, or no fraction. -/
def isZeroFraction : List Char → Bool
  | [] => true
  | _ :: zeros => !zeros.isEmpty && zeros.all (· == '0')

/-- The whole number that a text writes: an optional sign and digits, with one underscore allowed
between two of them and a fraction of zeros behind them. -/
def wholeNumber? (text : String) : Option Int :=
  let (negative, body) := Number.splitSign (Text.trimWhile isNumberPadding text.toList)
  match Number.joinDigits? false (body.takeWhile (· != '.')) with
  | some digits =>
    if digits.isEmpty || !digits.all Text.isDigit ||
        !isZeroFraction (body.dropWhile (· != '.')) then none
    else some (if negative then -(Number.naturalOf digits : Int) else Number.naturalOf digits)
  | none => none

/-- The text that a value gives. -/
def asText : Value → Except Problem String
  | .text text => .ok text
  | _ => .error .notText

/-- The whole number that a value gives. -/
def asWhole : Value → Except Problem Int
  | .text text =>
    match wholeNumber? text with
    | some n => .ok n
    | none => .error .notReadable
  | .whole n => .ok n
  | .fractional => .error .notWhole
  | .other => .error .notNumber

/-- The value for a field: the one given directly, else the latest among the environment variables
of its name. -/
def valueFor? (environment : List (String × String)) (given : List (String × Value))
    (field : Field) : Option Value :=
  match given.lookup field.name with
  | some value => some value
  | none =>
    (environment.reverse.find? fun entry => entry.1.toLower == field.environmentName).map (.text ·.2)

/-- A field read from its value, or the default. -/
def choose (environment : List (String × String)) (given : List (String × Value)) (field : Field)
    (default : α) (read : Value → Except Problem α) : Except (Field × Problem) α :=
  match valueFor? environment given field with
  | none => .ok default
  | some value => (read value).mapError (field, ·)

/-- The problems that some readings have. -/
def problemsOf : List (Except (Field × Problem) Unit) → List (Field × Problem)
  | [] => []
  | .error problem :: rest => problem :: problemsOf rest
  | .ok _ :: rest => problemsOf rest

/-- The settings that an environment and some given values make, or every field whose value does
not suit it. -/
def build (environment : List (String × String)) (given : List (String × Value)) :
    Except (List (Field × Problem)) Settings :=
  let defaults : Settings := {}
  let text field default := choose environment given field default asText
  let logLevel := text .logLevel defaults.logLevel
  let prompt := text .prompt defaults.prompt
  let exitCommand := text .exitCommand defaults.exitCommand
  let maxSessions := choose environment given .maxSessions defaults.maxSessions asWhole
  let title := text .title defaults.title
  let version := text .version defaults.version
  match logLevel, prompt, exitCommand, maxSessions, title, version with
  | .ok logLevel, .ok prompt, .ok exitCommand, .ok maxSessions, .ok title, .ok version =>
    .ok ⟨logLevel, prompt, exitCommand, maxSessions, title, version⟩
  | _, _, _, _, _, _ =>
    .error (problemsOf [logLevel.map (fun _ => ()), prompt.map (fun _ => ()),
      exitCommand.map (fun _ => ()), maxSessions.map (fun _ => ()), title.map (fun _ => ()),
      version.map (fun _ => ())])

end Settings

/-- Why the program cannot start. -/
inductive StartFailure where
  /-- Some settings do not suit their fields. -/
  | unsuitable (problems : List (Settings.Field × Settings.Problem))
  /-- There is no log level of this name. -/
  | unknownLevel (name : String)
  /-- There would be no room for a session. -/
  | noRoom
  deriving DecidableEq, Repr

/-- The explanation of a failed start; unsuitable settings are told by their fields instead. -/
def StartFailure.message : StartFailure → String
  | .unsuitable _ => ""
  | .unknownLevel name => "Unknown level: " ++ Text.quoted name
  | .noRoom => "max_sessions must be >= 1"

/-- The weight from which events are shown under some settings. -/
def Settings.threshold (settings : Settings) : Except StartFailure Nat :=
  match Log.threshold? settings.logLevel with
  | some weight => .ok weight
  | none => .error (.unknownLevel (Text.upperCase settings.logLevel))

/-- No sessions, with as much room as the settings give. -/
def Settings.noSessions (settings : Settings) : Except StartFailure Sessions :=
  match Sessions.empty? settings.maxSessions with
  | some sessions => .ok sessions
  | none => .error .noRoom

end Reckoner
