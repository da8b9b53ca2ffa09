import Reckoner.Text.DecimalDigit
import Reckoner.Text.Quoted

/-!
# Arguments of the command line

The first argument names a command and the others belong to it. The only option, of the program
and of every command, asks for help. An argument with a hyphen in front is an option, unless it is
the hyphen alone, a negative number, or holds a space; behind the separator `--` nothing is an
option. Arguments that nobody takes are reported together at the end.
-/

namespace Reckoner.CommandLine

/-- A command with its arguments. -/
inductive Command where
  /-- The dialogue. -/
  | repl
  /-- A batch of expressions. -/
  | eval (expressions : List String)
  /-- The explanation of an expression. -/
  | rpn (expression : Option String)
  deriving DecidableEq, Repr

/-- Why no command is carried out. -/
inductive Refusal where
  /-- Help was asked for. -/
  | help
  /-- The help option of `program` was given a value. -/
  | valueForHelp (program value : String)
  /-- No command was named. -/
  | noCommand
  /-- There is no command of this name. -/
  | unknownCommand (name : String)
  /-- There are arguments that nobody takes. -/
  | surplus (arguments : List String)
  deriving DecidableEq, Repr

/-- The name of the program. -/
def program : String := "shuntcalc"

/-- The names of the commands. -/
def commandNames : List String := ["repl", "eval", "rpn"]

/-- The exit status of a refusal. -/
def Refusal.status : Refusal → Nat
  | .help => 0
  | _ => 2

/-- The explanation of a refusal, none where help is given. -/
def Refusal.message? : Refusal → Option String
  | .help => none
  | .valueForHelp name value =>
    some (name ++ ": error: argument -h/--help: ignored explicit argument " ++ Text.quoted value)
  | .noCommand => some (program ++ ": error: the following arguments are required: command")
  | .unknownCommand name =>
    some (program ++ ": error: argument command: invalid choice: " ++ Text.quoted name ++
      " (choose from " ++ ", ".intercalate (commandNames.map Text.quoted) ++ ")")
  | .surplus arguments =>
    some (program ++ ": error: unrecognized arguments: " ++ " ".intercalate arguments)

/-- What an argument is taken for. -/
inductive Role where
  /-- An argument of a command. -/
  | plain
  /-- The separator. -/
  | separator
  /-- The help option. -/
  | help
  /-- The help option with a value, which it does not take. -/
  | helpWith (value : String)
  /-- An option that is not known. -/
  | unknownOption
  deriving DecidableEq, Repr

/-- Whether characters form a negative number: a hyphen, digits of any script with at most one
point before the last of them, and perhaps a line feed. -/
def isNegativeNumber : List Char → Bool
  | '-' :: cs =>
    let isAnyDigit (c : Char) : Bool := (Text.decimalDigit? c).isSome
    let body := if cs.getLast? == some '\n' then cs.dropLast else cs
    match body.dropWhile isAnyDigit with
    | [] => !body.isEmpty
    | '.' :: fraction => !fraction.isEmpty && fraction.all isAnyDigit
    | _ => false
  | _ => false

/-- What follows the letter of the short help option in its argument. More options may follow
directly; the letter `h` is the only one that is known, and from any other character on the rest is
a value. -/
def shortTail : List Char → Role
  | [] => .help
  | 'h' :: rest => shortTail rest
  | value => .helpWith (String.ofList value)

/-- The role of an argument with two hyphens in front. Every beginning of the long help option
stands for it. -/
def longRole (cs : List Char) : Role :=
  let name := cs.takeWhile (· != '=')
  if name.isPrefixOf "--help".toList then
    match cs.dropWhile (· != '=') with
    | [] => .help
    | _ :: value => .helpWith (String.ofList value)
  else if cs.contains ' ' then .plain
  else .unknownOption

/-- The role of an argument before the separator. An equals sign directly behind the short help
option opens a value; unless it is empty, it is read like any other tail. -/
def roleOf (argument : String) : Role :=
  match argument.toList with
  | ['-', '-'] => .separator
  | '-' :: '-' :: cs => longRole ('-' :: '-' :: cs)
  | ['-', 'h', '='] => .helpWith ""
  | '-' :: 'h' :: '=' :: tail => shortTail tail
  | '-' :: 'h' :: tail => shortTail tail
  | '-' :: c :: cs =>
    if isNegativeNumber ('-' :: c :: cs) || (c :: cs).contains ' ' then .plain else .unknownOption
  | _ => .plain

/-- Arguments with their roles; behind the separator all are plain. -/
def withRoles : List String → List (Role × String)
  | [] => []
  | argument :: rest =>
    if roleOf argument = .separator then
      (.separator, argument) :: rest.map (Role.plain, ·)
    else (roleOf argument, argument) :: withRoles rest

/-- How many of the arguments in front a command takes, options excluded. -/
inductive Appetite where
  /-- None. -/
  | none
  /-- At most one. -/
  | one
  /-- All in a row. -/
  | many
  deriving DecidableEq, Repr

/-- Whether an argument is plain or the separator. -/
def isOperand (argument : Role × String) : Bool :=
  argument.1 == .plain || argument.1 == .separator

/-- Divides the arguments in front into what a command takes and the rest. -/
def Appetite.take (appetite : Appetite) (arguments : List (Role × String)) :
    List (Role × String) × List (Role × String) :=
  match appetite with
  | .none => ([], arguments)
  | .many => (arguments.takeWhile isOperand, arguments.dropWhile isOperand)
  | .one =>
    let isSeparator (argument : Role × String) : Bool := argument.1 == .separator
    let before := arguments.takeWhile isSeparator
    match arguments.dropWhile isSeparator with
    | argument :: rest =>
      if argument.1 == .plain then
        (before ++ argument :: rest.takeWhile isSeparator, rest.dropWhile isSeparator)
      else (before, argument :: rest)
    | [] => (before, [])

/-- The texts that a command takes without the separator, and the arguments that are left over. -/
structure Shares where
  /-- What the command takes. -/
  taken : List String
  /-- What nobody takes. -/
  surplus : List String

/-- Shares out the arguments of a command. It is served once, at the first argument that is not an
option; later arguments are left over, separators included. -/
def share (name : String) (appetite : Appetite) : List (Role × String) → Except Refusal Shares
  | [] => .ok ⟨[], []⟩
  | (.help, _) :: _ => .error .help
  | (.helpWith value, _) :: _ => .error (.valueForHelp (program ++ " " ++ name) value)
  | (.unknownOption, argument) :: rest =>
    (share name appetite rest).map fun shares => ⟨shares.taken, argument :: shares.surplus⟩
  | (.plain, argument) :: rest => serve ((.plain, argument) :: rest)
  | (.separator, argument) :: rest => serve ((.separator, argument) :: rest)
where
  /-- Serves the command with what stands in front. -/
  serve (arguments : List (Role × String)) : Except Refusal Shares :=
    let (taken, rest) := appetite.take arguments
    let texts := (taken.filter (·.1 == .plain)).map Prod.snd
    (leave rest).map fun surplus => ⟨texts, surplus⟩
  /-- What is left over once the command is served. -/
  leave : List (Role × String) → Except Refusal (List String)
    | [] => .ok []
    | (.help, _) :: _ => .error .help
    | (.helpWith value, _) :: _ => .error (.valueForHelp (program ++ " " ++ name) value)
    | (_, argument) :: rest => (leave rest).map (argument :: ·)

/-- The command of a name with its arguments, and the arguments that are left over. -/
def commandOf (name : String) (arguments : List String) :
    Except Refusal (Command × List String) :=
  let roles := withRoles arguments
  if name == "repl" then
    (share name .none roles).map fun shares => (.repl, shares.surplus)
  else if name == "eval" then
    (share name .many roles).map fun shares => (.eval shares.taken, shares.surplus)
  else if name == "rpn" then
    (share name .one roles).map fun shares => (.rpn shares.taken.head?, shares.surplus)
  else .error (.unknownCommand name)

/-- The command of the arguments; `passed` holds the unknown options in front of it. -/
def parseAfter (passed : List String) : List String → Except Refusal Command
  | [] => .error .noCommand
  | argument :: rest =>
    match roleOf argument with
    | .help => .error .help
    | .helpWith value => .error (.valueForHelp program value)
    | .unknownOption => parseAfter (passed ++ [argument]) rest
    | .separator => .error (if rest.isEmpty then .noCommand else .unknownCommand argument)
    | .plain =>
      match commandOf argument rest with
      | .error refusal => .error refusal
      | .ok (command, surplus) =>
        if (passed ++ surplus).isEmpty then .ok command else .error (.surplus (passed ++ surplus))

/-- The command of the arguments. -/
def parse (arguments : List String) : Except Refusal Command :=
  parseAfter [] arguments

end Reckoner.CommandLine
