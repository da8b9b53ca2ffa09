import Reckoner.Failure
import Reckoner.Operator
import Reckoner.Token

/-!
# Reverse Polish order

Puts the tokens of an expression into the order in which a stack machine wants them: operands
before their operator, the argument before the name of its function, no parentheses. One pass from
left to right keeps the operators, the opening parentheses and the names of called functions that
still wait for their operands on a stack, the latest on top. Each token first moves some of them to
the output.
-/

namespace Reckoner.Rpn

/-- Whether a sign stands in front of its operand: at the start, behind an operator, and behind an
opening parenthesis. -/
def isFrontPosition : Option Token → Bool
  | none => true
  | some previous => previous.kind == .operator || previous.kind == .opening

/-- An operator token as its place reads it. -/
def readOperator (previous : Option Token) (token : Token) : Token :=
  if isFrontPosition previous then
    match Operator.frontForm? token.text with
    | some symbol => .operator symbol
    | none => token
  else token

/-- Whether a waiting token is an operator that takes its operands before the incoming symbol
does: it binds tighter, or equally tight and the incoming one groups to the left. -/
def yields (symbol : String) (waiting : Token) : Bool :=
  waiting.kind == .operator &&
    (Operator.precedenceOf symbol < Operator.precedenceOf waiting.text ||
      (Operator.precedenceOf waiting.text == Operator.precedenceOf symbol &&
        Operator.groupsLeft symbol))

/-- Whether a token is an opening parenthesis. -/
def isOpening (token : Token) : Bool :=
  token.kind == .opening

/-- Closes the innermost group: moves what waits above its opening parenthesis, and the name of
the called function if one stands directly below. -/
def closeGroup (waiting : List Token) : Except Failure (List Token × List Token) :=
  let inside := waiting.takeWhile (!isOpening ·)
  match waiting.dropWhile (!isOpening ·) with
  | [] => .error .unexpectedClosing
  | _ :: below =>
    match below with
    | caller :: rest =>
      if caller.kind == .identifier then .ok (inside ++ [caller], rest) else .ok (inside, below)
    | [] => .ok (inside, [])

/-- Reads one token between its neighbours: what moves to the output, and what waits then. -/
def step (waiting : List Token) (previous : Option Token) (token : Token) (next : Option Token) :
    Except Failure (List Token × List Token) :=
  match token.kind with
  | .number => .ok ([token], waiting)
  | .identifier =>
    if next.any isOpening then .ok ([], token :: waiting) else .ok ([token], waiting)
  | .operator =>
    let incoming := readOperator previous token
    .ok (waiting.takeWhile (yields incoming.text),
      incoming :: waiting.dropWhile (yields incoming.text))
  | .opening => .ok ([], token :: waiting)
  | .closing => closeGroup waiting

/-- The output at the end: all that waits, among which no opening parenthesis may be left. -/
def drain (waiting : List Token) : Except Failure (List Token) :=
  if waiting.any isOpening then .error .unclosedOpening else .ok waiting

/-- The output of the remaining tokens, behind a previous token and over the waiting ones. -/
def arrangeFrom (waiting : List Token) (previous : Option Token) :
    List Token → Except Failure (List Token)
  | [] => drain waiting
  | token :: tokens => do
    let (output, waiting) ← step waiting previous token tokens.head?
    return output ++ (← arrangeFrom waiting (some token) tokens)

/-- The tokens of an expression in reverse Polish order. -/
def arrange (tokens : List Token) : Except Failure (List Token) :=
  arrangeFrom [] none tokens

end Reckoner.Rpn
