import Onepass.Execution.Expression

/-! # Calling functions

A call evaluates its arguments, checks them against the signature, and executes the body of the
function with the cursor moved there. The body sees the global scope and its own scopes only. When
the call ends, in whatever way, the cursor, the local scopes, the frames and the loop count of the
caller are back.
-/

set_option autoImplicit false

namespace Onepass.Exec

/-- How many calls may be active at once. -/
def maxCallDepth : Nat := 512

/-- Checks the arguments that have a declared type, from left to right. -/
def checkArguments (function : String) : List (Parameter × Token × Value) → Exec Unit
  | [] => pure ()
  | (parameter, token, value) :: rest => do
    match parameter.type with
    | some type =>
      if ← conforms value type then checkArguments function rest
      else
        refuse (.argumentMismatch parameter.name function type (← describe value)) token.position
    | none => checkArguments function rest

/-- The heap after the arguments were given the element types that the parameters declare. -/
def retagArguments (heap : Heap) (arguments : List (Parameter × Value)) : Heap :=
  arguments.foldl (fun heap argument =>
    match argument.1.type with
    | some type => heap.retag argument.2 type
    | none => heap) heap

/-- The scope in which the body of a function starts: its parameters with the arguments. -/
def parameterScope (arguments : List (Parameter × Value)) : Scope :=
  ⟨arguments.map fun argument => (argument.1.name, ⟨argument.2, argument.1.type, false⟩)⟩

/-- The machine at the beginning of a call. -/
def enterCall (function : Function) (arguments : List Value) (machine : Machine) : Machine :=
  let bound := function.parameters.zip arguments
  { machine with
    cursor := function.start
    scopes := machine.scopes.enter.push (parameterScope bound)
    frames := function :: machine.frames
    loopDepth := 0
    returned := .null
    heap := retagArguments machine.heap bound }

/-- The machine after a call, with what belongs to the caller put back. -/
def leaveCall (cursor loopDepth : Nat) (machine : Machine) : Machine :=
  { machine with
    cursor
    scopes := machine.scopes.leave
    frames := machine.frames.tail
    loopDepth }

/-- Executes statements up to a place, or until one of them does not end normally. -/
def statementsUntil (statement : Exec Signal) (finish : Nat) : Nat → Exec Signal
  | 0 => throw .exhausted
  | fuel + 1 => do
    if (← get).cursor < finish then
      match ← statement with
      | .normal => statementsUntil statement finish fuel
      | signal => return signal
    else
      return .normal

/-- Executes the body of a function. The value that was returned is taken before the caller gets
anything back. -/
def callBody (statement : Exec Signal) (finish fuel : Nat) : Exec (Signal × Value) := do
  let signal ← statementsUntil statement finish fuel
  return (signal, (← get).returned)

/-- What a call gives after its body ended with a signal and a value. A function that must give a
value has to return one. -/
def callResult (function : Function) (name : Token) : Signal × Value → Exec Value
  | (.returning, value) => return value
  | _ =>
    if function.returnType = .void then return .null
    else refuse (.missingReturn function.name function.returnType) name.position

/-- Executes the body of a function for arguments that fit its signature. The token is that of the
name in the call. -/
def invoke (evaluator : Evaluator) (function : Function) (arguments : List Value) (name : Token)
    (fuel : Nat) : Exec Value := do
  let cursor := (← get).cursor
  let loopDepth := (← get).loopDepth
  modify (enterCall function arguments)
  let ended ← ensuring (leaveCall cursor loopDepth)
    (callBody evaluator.statement function.finish fuel)
  callResult function name ended

section

variable (script : Script)

/-- Reads the arguments of a call, each with the token it begins with. -/
def arguments (evaluator : Evaluator) (fuel : Nat) : Exec (List (Token × Value)) :=
  separated script .rightParen (do
    let token ← current script
    return (token, ← evaluator.expression)) fuel

/-- Reads a call and performs it. Nothing about the function is looked at before all arguments were
evaluated. -/
def call (evaluator : Evaluator) (fuel : Nat) : Exec Value := do
  let name ← expect script .identifier
  expectSymbol script .leftParen
  let given ← arguments script evaluator fuel
  expectSymbol script .rightParen
  match (← get).functions.lookup? name.word with
  | none => refuse (.undefinedFunction name.word) name.position
  | some function =>
    if given.length ≠ function.arity then
      refuse (.argumentCount name.word function.arity given.length) name.position
    else
      checkArguments name.word (function.parameters.zip given)
      if maxCallDepth ≤ (← get).frames.length then
        refuse (.callDepth maxCallDepth) name.position
      else
        invoke evaluator function (given.map Prod.snd) name fuel

end

end Onepass.Exec
