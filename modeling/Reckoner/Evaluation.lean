import Reckoner.Arithmetic
import Reckoner.Number.Reading
import Reckoner.Token
import Reckoner.Bindings

/-!
# Evaluation on a stack

Tokens in reverse Polish order are run on a stack of values. Each token becomes an instruction,
which depends on the variables; the instruction takes its operands from the stack and leaves its
result there. A name stands for a variable, else for a constant, else for a function. At the end
exactly one value must be left.
-/

namespace Reckoner

/-- What a token does to the stack. -/
inductive Instruction where
  /-- Puts down the value of a literal or a constant. -/
  | literal (value : Float)
  /-- Puts down the value of a variable. -/
  | recall (name : String) (value : Float)
  /-- Replaces the top by the value of a function. -/
  | call (function : MathFunction)
  /-- Replaces the top by the result of an operator. -/
  | unary (symbol : String) (operation : UnaryOperation)
  /-- Replaces the two values on top by the result of an operator. -/
  | binary (symbol : String) (operation : BinaryOperation)

/-- A step of an evaluation that is worth telling. -/
inductive Step where
  /-- The value of a variable. -/
  | recalled (name : String) (value : Float)
  /-- A function with its argument and its result. -/
  | called (function : MathFunction) (argument result : Float)
  /-- An operator with its operand and its result. -/
  | unary (operation : UnaryOperation) (operand result : Float)
  /-- An operator with its operands and its result. -/
  | binary (symbol : String) (left right result : Float)

/-- The result of a step. -/
def Step.result : Step → Float
  | .recalled _ value => value
  | .called _ _ result => result
  | .unary _ _ result => result
  | .binary _ _ _ result => result

/-- What a step computes, without its result. -/
def Step.subject : Step → String
  | .recalled name _ => name
  | .called function argument _ => function.name ++ "(" ++ Number.brief argument ++ ")"
  | .unary operation operand _ => operation.sign ++ "(" ++ Number.brief operand ++ ")"
  | .binary symbol left right _ =>
    Number.brief left ++ " " ++ symbol ++ " " ++ Number.brief right

/-- A step as text: `2 * 3 = 6`. -/
def Step.text (step : Step) : String :=
  step.subject ++ " = " ++ Number.brief step.result

namespace Instruction

/-- The instruction of a name. -/
def ofName (bindings : Bindings) (name : String) : Except Failure Instruction :=
  match bindings.get? name with
  | some value => .ok (.recall name value)
  | none =>
    match constant? name with
    | some value => .ok (.literal value)
    | none =>
      match MathFunction.find? name with
      | some f => .ok (.call f)
      | none => .error (.unknownIdentifier name)

/-- The instruction of an operator symbol. -/
def ofSymbol (symbol : String) : Except Failure Instruction :=
  match Operator.find? symbol with
  | some o =>
    match o.operation with
    | .unary operation => .ok (.unary symbol operation)
    | .binary operation => .ok (.binary symbol operation)
  | none => .error (.unknownOperator symbol)

/-- The instruction of a token. -/
def ofToken (bindings : Bindings) (token : Token) : Except Failure Instruction :=
  match token.kind with
  | .number =>
    match Number.read? token.text with
    | some value => .ok (.literal value)
    | none => .error (.invalidNumber token.text)
  | .identifier => ofName bindings token.text
  | .operator => ofSymbol token.text
  | .opening => .error (.unexpectedToken token.text)
  | .closing => .error (.unexpectedToken token.text)

/-- The stack after an instruction. The top of the stack is the head of the list. -/
def execute : Instruction → List Float → Except Failure (List Float)
  | .literal value, stack => .ok (value :: stack)
  | .recall _ value, stack => .ok (value :: stack)
  | .call f, x :: stack => (f.apply x).map (· :: stack)
  | .call f, [] => .error (.missingOperands f.name 1 0)
  | .unary _ operation, a :: stack => .ok (operation.apply a :: stack)
  | .unary symbol _, [] => .error (.missingOperands symbol 1 0)
  | .binary symbol operation, b :: a :: stack => (operation.apply symbol a b).map (· :: stack)
  | .binary symbol _, stack => .error (.missingOperands symbol 2 stack.length)

/-- The step to tell of an instruction, by the stacks before and after it. -/
def step? : Instruction → List Float → List Float → Option Step
  | .recall name value, _, _ => some (.recalled name value)
  | .call f, x :: _, result :: _ => some (.called f x result)
  | .unary _ operation, a :: _, result :: _ => some (.unary operation a result)
  | .binary symbol _, b :: a :: _, result :: _ => some (.binary symbol a b result)
  | _, _, _ => none

end Instruction

namespace Evaluation

/-- The stack after some tokens. -/
def runFrom (bindings : Bindings) : List Float → List Token → Except Failure (List Float)
  | stack, [] => .ok stack
  | stack, token :: tokens => do
    let instruction ← Instruction.ofToken bindings token
    let stack ← instruction.execute stack
    runFrom bindings stack tokens

/-- The stack after some tokens, and the steps on the way. -/
def traceFrom (bindings : Bindings) :
    List Float → List Token → Except Failure (List Float × List Step)
  | stack, [] => .ok (stack, [])
  | stack, token :: tokens => do
    let instruction ← Instruction.ofToken bindings token
    let after ← instruction.execute stack
    let (final, steps) ← traceFrom bindings after tokens
    return (final, (instruction.step? stack after).toList ++ steps)

/-- The one value on a stack. -/
def onlyValue : List Float → Except Failure Float
  | [value] => .ok value
  | stack => .error (.leftOver stack.length)

end Evaluation

/-- The value of tokens in reverse Polish order. -/
def evaluate (bindings : Bindings) (rpn : List Token) : Except Failure Float := do
  Evaluation.onlyValue (← Evaluation.runFrom bindings [] rpn)

/-- The value of tokens in reverse Polish order, and the steps on the way to it. -/
def evaluateWithSteps (bindings : Bindings) (rpn : List Token) :
    Except Failure (Float × List Step) := do
  let (stack, steps) ← Evaluation.traceFrom bindings [] rpn
  let value ← Evaluation.onlyValue stack
  return (value, steps)

end Reckoner
