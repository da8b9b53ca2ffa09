import Reckoner.Log

/-!
# Output of the commands

The commands write to a terminal in two streams. Answers and prompts go to one; complaints and
the log go to the other.
-/

namespace Reckoner

/-- A piece of output. -/
inductive Output where
  /-- A prompt, which the answer follows on the same line. -/
  | prompt (text : String)
  /-- A line of an answer. -/
  | line (text : String)
  /-- A line of complaint. -/
  | complaint (text : String)
  /-- An event for the log. -/
  | logged (event : Event)

namespace Output

/-- What a piece of output writes to the stream of answers. -/
def answer : Output → String
  | .prompt text => text
  | .line text => text ++ "\n"
  | _ => ""

/-- What a piece of output writes to the stream of complaints, at a log threshold. -/
def complaintText (threshold : Nat) : Output → String
  | .complaint text => text ++ "\n"
  | .logged event => String.join ((Log.records threshold [event]).map (· ++ "\n"))
  | _ => ""

/-- The stream of answers. -/
def answers (output : List Output) : String :=
  String.join (output.map answer)

/-- The stream of complaints, at a log threshold. -/
def complaints (threshold : Nat) (output : List Output) : String :=
  String.join (output.map (complaintText threshold))

end Output

/-- How a failure is told to the user. -/
def Failure.notice (failure : Failure) : String :=
  "Error: " ++ failure.message

end Reckoner
