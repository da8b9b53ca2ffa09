import Reckoner.CommandLine

/-!
# The program

Reads the arguments, the environment and the input, and writes what the command line gives back.
-/

open Reckoner

/-- The rest of the input. -/
partial def readAll (stream : IO.FS.Stream) (before : String) : IO String := do
  let line ← stream.getLine
  if line.isEmpty then return before else readAll stream (before ++ line)

/-- The environment variables that settings may come from, in upper and in lower case. -/
def settingVariables : IO (List (String × String)) := do
  let fields : List Settings.Field :=
    [.logLevel, .prompt, .exitCommand, .maxSessions, .title, .version]
  let lower := fields.map Settings.Field.environmentName
  let names := lower ++ lower.map String.toUpper
  names.filterMapM fun name => do
    return (← IO.getEnv name).map (name, ·)

/-- Runs the program on the terminal. -/
def main (arguments : List String) : IO UInt32 := do
  let environment ← settingVariables
  let input ← readAll (← IO.getStdin) ""
  match CommandLine.run arguments ⟨environment, input, .utf8⟩ with
  | .refused refusal =>
    for message in refusal.message? do
      IO.eprintln message
    return UInt32.ofNat refusal.status
  | .notStarted (.unsuitable problems) =>
    for (field, problem) in problems do
      IO.eprintln (field.name ++ ": " ++ problem.name)
    return 1
  | .notStarted failure =>
    IO.eprintln failure.message
    return 1
  | .finished status answers complaints =>
    IO.print answers
    IO.eprint complaints
    return UInt32.ofNat status
