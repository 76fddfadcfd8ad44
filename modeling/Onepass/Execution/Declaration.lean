import Onepass.Execution.Call

/-! # Declarations and assignments

Declaring variables and functions, and changing the values of variables and the elements of arrays.
Whatever a program declares a type for is checked against it before it is stored.
-/

set_option autoImplicit false

namespace Onepass.Exec

section

variable (script : Script)

/-- Checks that a value conforms to a declared type; a mismatch belongs to the given position. -/
def checkAssigned (value : Value) (type : DeclaredType) (position : Position) : Exec Unit := do
  if ← conforms value type then return ()
  else refuse (.assignmentMismatch (← describe value) type) position

/-- Checks a value against an expected type and gives it the element types of that type. -/
def adopt (value : Value) (expected : Option DeclaredType) (position : Position) : Exec Unit := do
  match expected with
  | some type =>
    checkAssigned value type position
    retag value type
  | none => pure ()

/-- Reads the initial value of a variable. Brackets at its beginning are a literal for a declared
array type, and then the literal is the whole value. -/
def initializer (evaluator : Evaluator) (type : DeclaredType) (fuel : Nat) : Exec Value := do
  match type.dimensions with
  | 0 => evaluator.expression
  | dimensions + 1 =>
    if (← currentKind script) = .symbol .leftBracket then
      declaredArray script evaluator fuel type.base dimensions
    else
      evaluator.expression

/-- Reads the declaration of a variable, constant if a dollar sign stands before its name, and gives
the name with what it is to stand for. The name must be new in the innermost scope before anything
after it is read. -/
def declaredVariable (evaluator : Evaluator) (fuel : Nat) : Exec (Token × Binding) := do
  let constant ← accept script (.symbol .dollar)
  let name ← expect script .identifier
  if (← get).scopes.current.contains name.word then
    refuse (.variableDeclared name.word) name.position
  expectSymbol script .colon
  let type ← readType script
  if type = .void then
    refuse (.voidVariable name.word) name.position
  expectSymbol script .equal
  let start ← current script
  let value ← initializer script evaluator type fuel
  adopt value (some type) start.position
  return (name, ⟨value, some type, constant⟩)

/-- Declares a variable in the innermost scope. -/
def variableDeclaration (evaluator : Evaluator) (fuel : Nat) : Exec Unit := do
  let (name, binding) ← declaredVariable script evaluator fuel
  modify fun machine =>
    { machine with scopes := (machine.scopes.declare name.word binding).1 }

/-- Reads the indices of a target, each with the token that it begins with. -/
def indices (evaluator : Evaluator) : Nat → Exec (List (Token × Value))
  | 0 => throw .exhausted
  | fuel + 1 => do
    if (← currentKind script) = .symbol .leftBracket then
      let _ ← advance script
      let token ← current script
      let index ← evaluator.expression
      expectSymbol script .rightBracket
      return (token, index) :: (← indices evaluator fuel)
    else
      return []

/-- What an assignment changes. -/
inductive Target where
  /-- The named variable itself. -/
  | named
  /-- An element of an array. -/
  | element (address : Address) (place : Nat)
  deriving DecidableEq, Repr

/-- Follows the indices from a container to the element that they select. -/
def selectElement (name : Token) (container : Value) : List (Token × Value) → Exec Target
  | [] => return .named
  | [(token, index)] => do
    match container with
    | .array address =>
      return .element address (← placeOf ((← get).heap.items address).size index token)
    | _ => refuse (.notAnArray name.word) name.position
  | (token, index) :: rest => do
    selectElement name (← elementAt container index token) rest

/-- The value that the target of an assignment has. -/
def targetValue (binding : Binding) : Target → Exec Value
  | .named => return binding.value
  | .element address place => return ((← get).heap.items address).getD place .null

/-- Reads the operator of an assignment together with what it needs, and gives the new value. -/
def assignedValue (evaluator : Evaluator) (operator : Token) (old : Value) : Exec Value := do
  match operator.kind with
  | .symbol .plusPlus => applyBinary operator .add old (.number .one)
  | .symbol .minusMinus => applyBinary operator .sub old (.number .one)
  | .symbol mark =>
    match BinaryOperator.ofCompound? mark with
    | some compound =>
      let operand ← evaluator.expression
      applyBinary operator compound old operand
    | none => evaluator.expression
  | _ => evaluator.expression

/-- The type that an assigned value has to conform to. For a variable it is the declared type. For
an element it is the declared type of the variable with a dimension removed for each index, if it
has so many, and otherwise the element type of the array. -/
def expectedType (heap : Heap) (binding : Binding) (indexCount : Nat) : Target → Option DeclaredType
  | .named => binding.type
  | .element address _ =>
    match binding.type with
    | some type =>
      if indexCount ≤ type.dimensions then some (type.peel indexCount)
      else heap.elementType? address
    | none => heap.elementType? address

/-- Stores a value in the target of an assignment, once it was checked and retagged. -/
def store (name : Token) (target : Target) (value : Value) : Exec Unit :=
  match target with
  | .named =>
    modify fun machine => { machine with scopes := (machine.scopes.assign name.word value).1 }
  | .element address place =>
    modify fun machine => { machine with heap := machine.heap.write address place value }

/-- Reads an assignment and gives what it stores and where. The variable has to exist before its
indices are evaluated; a constant is refused after that; the target is found before the new value is
evaluated; and the value is checked and retagged. -/
def preparedAssignment (evaluator : Evaluator) (fuel : Nat) : Exec (Token × Target × Value) := do
  let name ← advance script
  let _ ← bindingOf name
  let selected ← indices script evaluator fuel
  let operator ← current script
  if !operator.kind.isAssignment && !operator.kind.isStep then
    refuse (.expected (.symbol .equal) operator.kind) operator.position
  let _ ← advance script
  let binding ← bindingOf name
  if binding.constant then
    refuse (.constantReassigned name.word) name.position
  let target ← selectElement name binding.value selected
  let start ← current script
  let value ← assignedValue evaluator operator (← targetValue binding target)
  adopt value (expectedType (← get).heap binding selected.length target) start.position
  return (name, target, value)

/-- Assigns to a variable or to an element of an array. -/
def assignment (evaluator : Evaluator) (fuel : Nat) : Exec Unit := do
  let (name, target, value) ← preparedAssignment script evaluator fuel
  store name target value

/-- Reads the parameters of a function after those already read. -/
def parameters (function : String) (known : List Parameter) : Nat → Exec (List Parameter)
  | 0 => throw .exhausted
  | fuel + 1 => do
    if (← currentKind script) = .symbol .rightParen then
      return known
    else
      let name ← expect script .identifier
      if known.any (·.name == name.word) then
        refuse (.duplicateParameter name.word function) name.position
      let type ← optionalType
      let extended := known ++ [⟨name.word, type⟩]
      if ← accept script (.symbol .comma) then parameters function extended fuel
      else return extended
where
  /-- A declared type after a colon. -/
  optionalType : Exec (Option DeclaredType) := do
    if ← accept script (.symbol .colon) then return some (← readType script)
    else return none

/-- Adds a function to the table. Coming to the same declaration again is no second declaration. -/
def register (function : Function) (position : Position) : Exec Unit := do
  let table := (← get).functions
  if (table.lookup? function.name).any (·.start == function.start) then
    return ()
  match table.register? function with
  | some functions => modify fun machine => { machine with functions }
  | none => refuse (.functionDeclared function.name) position

/-- Declares a function. Its body is passed over. -/
def functionDeclaration (fuel : Nat) : Exec Unit := do
  let _ ← expect script (.keyword .funcWord)
  let name ← expect script .identifier
  expectSymbol script .leftParen
  let signature ← parameters script name.word [] fuel
  expectSymbol script .rightParen
  let returnType := (← parameters.optionalType script).getD .void
  if (← currentKind script) ≠ .symbol .leftBrace then
    refuseToken script (.symbol .leftBrace)
  let start := (← get).cursor + 1
  passOver script.bracesEnd
  let finish := (← get).cursor - 1
  register ⟨name.word, signature, returnType, start, finish⟩ name.position

end

end Onepass.Exec
