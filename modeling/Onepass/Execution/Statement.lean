import Onepass.Execution.Declaration
import Onepass.Execution.Iteration

/-! # Executing statements

Statements are executed while they are read. A statement that ends normally leaves the cursor behind
itself; one that ends with another signal may leave it anywhere, because the construct that the
signal is meant for moves the cursor on. Bodies that are not executed are passed over.

As with expressions, the statements and expressions inside a construct are given by the evaluator
that it takes, and `fuel` bounds how often a repetition is followed.
-/

set_option autoImplicit false

namespace Onepass.Exec

section

variable (script : Script)

/-- Executes the statements of a block up to its closing brace. -/
def block (statement : Exec Signal) : Nat → Exec Signal
  | 0 => throw .exhausted
  | fuel + 1 => do
    match ← currentKind script with
    | .symbol .rightBrace =>
      let _ ← advance script
      return .normal
    | .endOfInput => refuseToken script (.symbol .rightBrace)
    | _ =>
      match ← statement with
      | .normal => block statement fuel
      | signal => return signal

/-- Closes the innermost scope. -/
def closeScope (machine : Machine) : Machine :=
  { machine with scopes := machine.scopes.close }

/-- Executes a block or a single statement. -/
def bodyContent (evaluator : Evaluator) (fuel : Nat) : Exec Signal := do
  if ← accept script (.symbol .leftBrace) then block script evaluator.statement fuel
  else evaluator.statement

/-- Executes a block or a single statement in a new scope, which is gone afterwards. -/
def body (evaluator : Evaluator) (scope : Scope) (fuel : Nat) : Exec Signal := do
  modify fun machine => { machine with scopes := machine.scopes.push scope }
  ensuring closeScope (bodyContent script evaluator fuel)

/-- Reads the values to print and joins their texts. Commas between them may be left out. -/
def printedValues (evaluator : Evaluator) : Nat → Exec String
  | 0 => throw .exhausted
  | fuel + 1 => do
    match ← currentKind script with
    | .symbol .rightParen => return ""
    | .endOfInput => refuseToken script (.symbol .rightParen)
    | _ =>
      let text ← printed (← evaluator.expression)
      let _ ← accept script (.symbol .comma)
      return text ++ (← printedValues evaluator fuel)

/-- Prints values, all in one piece of output, with a line feed after them if asked for. -/
def printValues (evaluator : Evaluator) (fuel : Nat) : Exec Unit := do
  let keyword ← advance script
  expectSymbol script .leftParen
  let text ← printedValues script evaluator fuel
  expectSymbol script .rightParen
  let ending := if keyword.kind = .keyword .printlnWord then "\n" else ""
  modify fun machine => { machine with output := machine.output.push (text ++ ending) }

/-- Evaluates an expression that has to be a truth value. -/
def condition (evaluator : Evaluator) : Exec Bool := do
  let start ← current script
  match ← evaluator.expression with
  | .boolean value => return value
  | value => refuse (.notBoolean (← describe value)) start.position

/-- Evaluates a condition in parentheses. -/
def conditionInParentheses (evaluator : Evaluator) : Exec Bool := do
  expectSymbol script .leftParen
  let value ← condition script evaluator
  expectSymbol script .rightParen
  return value

/-- Executes the later branches of a conditional. Their conditions are evaluated even if a branch
was taken before; their bodies are executed only if none was. -/
def branches (evaluator : Evaluator) : Nat → Bool → Exec Signal
  | 0, _ => throw .exhausted
  | fuel + 1, taken => do
    if ← accept script (.keyword .elseIfWord) then
      let holds ← conditionInParentheses script evaluator
      if holds && !taken then
        match ← body script evaluator .empty fuel with
        | .normal => branches evaluator fuel true
        | signal => return signal
      else
        passBody script
        branches evaluator fuel taken
    else if ← accept script (.keyword .elseWord) then
      if taken then
        passBody script
        return .normal
      else
        body script evaluator .empty fuel
    else
      return .normal

/-- Executes a conditional. -/
def conditional (evaluator : Evaluator) (fuel : Nat) : Exec Signal := do
  let _ ← expect script (.keyword .ifWord)
  if ← conditionInParentheses script evaluator then
    match ← body script evaluator .empty fuel with
    | .normal => branches script evaluator fuel true
    | signal => return signal
  else
    passBody script
    branches script evaluator fuel false

/-- Executes the body of a loop once. -/
def iterate (evaluator : Evaluator) (scope : Scope) (fuel : Nat) : Exec Signal := do
  modify fun machine => { machine with loopDepth := machine.loopDepth + 1 }
  ensuring (fun machine => { machine with loopDepth := machine.loopDepth - 1 })
    (body script evaluator scope fuel)

/-- Where the body of a loop ends, as far as it is known: the first iteration that ends normally
shows it. -/
def noteEnd (known : Option Nat) (signal : Signal) : Exec (Option Nat) := do
  match known, signal with
  | none, .normal => return some (← get).cursor
  | _, _ => return known

/-- Leaves a loop whose body begins at a place. If no iteration has shown where the body ends, it is
passed over. -/
def leaveLoop (bodyStart : Nat) (known : Option Nat) : Exec Signal := do
  match known with
  | some finish => moveTo finish
  | none => moveTo (← bodyEnd script bodyStart)
  return .normal

/-- Executes the iterations of a loop over values that are fixed already. -/
def traverse (evaluator : Evaluator) (name : Token) (type : DeclaredType) (bodyStart : Nat) :
    Nat → Iteration → Option Nat → Exec Signal
  | 0, _, _ => throw .exhausted
  | fuel + 1, iteration, known => do
    match ← nextOf iteration with
    | none => leaveLoop script bodyStart known
    | some (value, rest) =>
      if !(← conforms value type) then
        refuse (.loopMismatch type (← describe value)) name.position
      moveTo bodyStart
      let signal ←
        iterate script evaluator ⟨[(name.word, ⟨value, some type, false⟩)]⟩ fuel
      let known ← noteEnd known signal
      match signal with
      | .breaking => leaveLoop script bodyStart known
      | .returning => return .returning
      | _ => traverse evaluator name type bodyStart fuel rest known

/-- Executes a loop over a range, an array or a text. -/
def traversal (evaluator : Evaluator) (fuel : Nat) : Exec Signal := do
  let _ ← expect script (.keyword .forWord)
  expectSymbol script .leftParen
  let name ← expect script .identifier
  expectSymbol script .colon
  let type ← readType script
  let _ ← expect script (.keyword .inWord)
  let values ← iteration script evaluator.expression
  expectSymbol script .rightParen
  traverse script evaluator name type (← get).cursor fuel values none

/-- Leaves a loop whose condition begins at a place. -/
def leaveRepetition (header : Nat) (known : Option Nat) : Exec Signal := do
  match known with
  | some finish =>
    moveTo finish
    return .normal
  | none =>
    let bodyStart ← ofDiagnosed (script.parenthesesEnd header)
    leaveLoop script bodyStart.val none

/-- Executes the iterations of a loop whose condition begins at a place. -/
def repeatWhile (evaluator : Evaluator) (header : Nat) : Nat → Option Nat → Exec Signal
  | 0, _ => throw .exhausted
  | fuel + 1, known => do
    moveTo header
    if ← conditionInParentheses script evaluator then
      let signal ← iterate script evaluator .empty fuel
      let known ← noteEnd known signal
      match signal with
      | .breaking => leaveRepetition script header known
      | .returning => return .returning
      | _ => repeatWhile evaluator header fuel known
    else
      leaveRepetition script header known

/-- Executes a loop with a condition. -/
def repetition (evaluator : Evaluator) (fuel : Nat) : Exec Signal := do
  let _ ← expect script (.keyword .whileWord)
  repeatWhile script evaluator (← get).cursor fuel none

/-- Executes a `break` or a `continue`. -/
def jump : Exec Signal := do
  let token ← advance script
  if (← get).loopDepth = 0 then
    refuse (.jumpOutsideLoop token.kind) token.position
  acceptSemicolon script
  return if token.kind = .keyword .breakWord then .breaking else .continuing

/-- Evaluates the value of a `return` in a function, whose type it has to conform to. -/
def returnedValue (evaluator : Evaluator) (function : Function) (keyword : Token) : Exec Value := do
  let start ← current script
  if script.returnHasValue (some function.returnType) keyword.position.line (← get).cursor then
    let value ← evaluator.expression
    if ← conforms value function.returnType then return value
    else
      refuse (.returnMismatch function.name function.returnType (← describe value)) start.position
  else if function.returnType = .void then
    return .null
  else
    refuse (.missingReturn function.name function.returnType) keyword.position

/-- Keeps a value for the call that is running. -/
def giveBack (value : Value) : Exec Unit :=
  modify fun machine => { machine with returned := value }

/-- Executes a `return`. -/
def returnFrom (evaluator : Evaluator) : Exec Signal := do
  let token ← advance script
  match (← get).frames with
  | [] => refuse .returnOutsideFunction token.position
  | function :: _ =>
    let value ← returnedValue script evaluator function token
    retag value function.returnType
    giveBack value
    acceptSemicolon script
    return .returning

/-- Counts a statement and adds it to the trace. A verbosity of one shows the statements outside all
blocks and calls only; a higher one shows all of them. -/
def observe (verbosity : Nat) (token : Token) : Exec Unit :=
  modify fun machine =>
    let shown :=
      2 ≤ verbosity ||
        (verbosity == 1 && machine.scopes.locals.isEmpty && machine.frames.isEmpty)
    let trace :=
      if shown then machine.trace.push (token.traceLine machine.scopes.locals.length)
      else machine.trace
    { machine with trace, steps := machine.steps + 1 }

/-- Ends a simple statement, with the semicolon that may follow it. -/
def simple (action : Exec Unit) : Exec Signal := do
  action
  acceptSemicolon script
  return .normal

/-- Executes the statement that begins with an identifier: what follows it tells a declaration, a
call and an assignment apart. -/
def namedStatement (evaluator : Evaluator) (fuel : Nat) : Exec Unit := do
  let following ← followingKind script
  if following = .symbol .colon then
    variableDeclaration script evaluator fuel
  else if following = .symbol .leftParen then
    let _ ← call script evaluator fuel
  else if following.isAssignment || following.isStep || following = .symbol .leftBracket then
    assignment script evaluator fuel
  else
    refuse .statementStart (← current script).position

/-- Executes the statement that begins with a token of the given kind at the given position. -/
def perform (evaluator : Evaluator) (fuel : Nat) (kind : Kind) (position : Position) :
    Exec Signal :=
  match kind with
  | .keyword .printWord | .keyword .printlnWord =>
    simple script (printValues script evaluator fuel)
  | .keyword .ifWord => conditional script evaluator fuel
  | .keyword .forWord => traversal script evaluator fuel
  | .keyword .whileWord => repetition script evaluator fuel
  | .keyword .funcWord => simple script (functionDeclaration script fuel)
  | .keyword .returnWord => returnFrom script evaluator
  | .keyword .breakWord | .keyword .continueWord => jump script
  | .symbol .leftBrace => body script evaluator .empty fuel
  | .symbol .dollar => simple script (variableDeclaration script evaluator fuel)
  | .identifier => simple script (namedStatement script evaluator fuel)
  | .symbol .semicolon => simple script (pure ())
  | _ => refuse .statementStart position

/-- Executes one statement. -/
def dispatch (verbosity : Nat) (evaluator : Evaluator) (fuel : Nat) : Exec Signal := do
  let token ← current script
  observe verbosity token
  perform script evaluator fuel token.kind token.position

end

end Onepass.Exec
