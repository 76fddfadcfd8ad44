import Onepass.Machine.Cursor
import Onepass.Value.Conformance

/-! # Evaluating expressions

Expressions are evaluated while they are read. Each rank of operators reads operands of the next
higher rank: disjunction, conjunction, comparison, type tests and conversions, sums, products,
prefix operators, and what follows an operand. Both operands of every operator are evaluated, from
left to right.

The definitions here are not recursive through each other: what an expression in parentheses, an
index, an element or a call evaluates to is given by the evaluator that they take. `fuel` bounds how
often a repetition of the grammar is followed.
-/

set_option autoImplicit false

namespace Onepass

/-- How a statement ended. -/
inductive Signal where
  | normal
  /-- The innermost loop is to be left. -/
  | breaking
  /-- The next iteration of the innermost loop is to begin. -/
  | continuing
  /-- The running function is to return, with the value that the machine holds for this. -/
  | returning
  deriving DecidableEq, Repr

/-- The evaluation of expressions and the execution of statements inside a construct. -/
structure Evaluator where
  expression : Exec Value
  statement : Exec Signal

/-- The ranks of the binary operators, from the loosest to the tightest. -/
inductive Rank where
  | disjunction | conjunction | comparison | sum | product
  deriving DecidableEq, Repr

/-- The rank of a binary operator. -/
def BinaryOperator.rank : BinaryOperator → Rank
  | .or => .disjunction
  | .and => .conjunction
  | .equal | .differ | .less | .greater | .lessOrEqual | .greaterOrEqual => .comparison
  | .add | .sub => .sum
  | .mul | .div | .rem => .product

/-- The binary operator of the rank that a token of the kind stands for. -/
def Kind.binaryOf? (kind : Kind) (rank : Rank) : Option BinaryOperator :=
  kind.binary?.filter fun operator => operator.rank = rank

namespace Exec

/-- Applies a binary operator; a fault belongs to the token of the operator. -/
def applyBinary (token : Token) (operator : BinaryOperator) (left right : Value) : Exec Value := do
  located token.position ((← get).heap.binary operator left right)

/-- Applies a unary operator; a fault belongs to the token of the operator. -/
def applyUnary (token : Token) (operator : UnaryOperator) (value : Value) : Exec Value :=
  located token.position (operator.apply value)

/-- What messages call the type of a value. -/
def describe (value : Value) : Exec DeclaredType := do
  return (← get).heap.describe value

/-- Whether a value conforms to a declared type. -/
def conforms (value : Value) (type : DeclaredType) : Exec Bool := do
  return (← get).heap.conforms value type

/-- Declares the element types that a declared type gives to a value. -/
def retag (value : Value) (type : DeclaredType) : Exec Unit :=
  modify fun machine => { machine with heap := machine.heap.retag value type }

/-- Makes a new array. -/
def allocate (items : List Value) (elementType : Option DeclaredType) : Exec Value :=
  modifyGet fun machine =>
    let (heap, address) := machine.heap.allocate items.toArray elementType
    (.array address, { machine with heap })

/-- How many digits an integer that is written out may have. -/
def shownDigits : Nat := 4300

/-- The place in a sequence that an index stands for: the index has to be an integral number within
the sequence. The message for another one shows it, if it is not too long for that. -/
def placeOf (length : Nat) (index : Value) (token : Token) : Exec Nat := do
  match index with
  | .number number =>
    if !number.isIntegral then
      refuse (.fractionalIndex number) token.position
    else if 0 ≤ number.truncated && number.truncated < length then
      return number.truncated.toNat
    else if shownDigits < Decimal.digitCount number.truncated.natAbs then
      throw (.limit .digits)
    else
      refuse (.indexOutOfBounds number.truncated) token.position
  | _ => refuse (.indexNotNumber (← describe index)) token.position

/-- The element of an array or the character of a text at an index. -/
def elementAt (container index : Value) (token : Token) : Exec Value := do
  match container with
  | .array address =>
    let place ← placeOf ((← get).heap.items address).size index token
    return ((← get).heap.items address).getD place .null
  | .string text =>
    let place ← placeOf text.length index token
    return .char (text.toList.getD place ' ')
  | _ => refuse (.notIndexable (← describe container)) token.position

/-- The binding of a variable. -/
def bindingOf (name : Token) : Exec Binding := do
  match (← get).scopes.lookup? name.word with
  | some binding => return binding
  | none => refuse (.undefinedVariable name.word) name.position

/-- The value of a variable. -/
def valueOf (name : Token) : Exec Value := do
  return (← bindingOf name).value

/-- The text that a program prints for a value. -/
def printed (value : Value) : Exec String := do
  match (← get).heap.text? .plain value with
  | some text => return text
  | none => throw .endless

section

variable (script : Script)

/-- Reads adjacent pieces of string literals and references and joins their texts. -/
def stringLiteral : Nat → Exec String
  | 0 => throw .exhausted
  | fuel + 1 => do
    match ← currentKind script with
    | .stringLiteral =>
      let token ← advance script
      return token.word ++ (← stringLiteral fuel)
    | .reference =>
      let token ← advance script
      let text ← printed (← valueOf token)
      return text ++ (← stringLiteral fuel)
    | _ => return ""

/-- Reads an array literal whose elements have a declared type. Each is checked when it was read,
and the new array carries the type. -/
def checkedArray (element : DeclaredType) (item : Exec Value) (fuel : Nat) : Exec Value := do
  expectSymbol script .leftBracket
  let items ← separated script .rightBracket (checked item) fuel
  expectSymbol script .rightBracket
  allocate items (some element)
where
  /-- An element that conforms to the declared type. -/
  checked (item : Exec Value) : Exec Value := do
    let token ← current script
    let value ← item
    if ← conforms value element then return value
    else refuse (.assignmentMismatch (← describe value) element) token.position

/-- Reads an array literal for a declared type: brackets directly inside brackets are literals for
the element type, as long as that has dimensions left. -/
def declaredArray (evaluator : Evaluator) (fuel : Nat) (base : String) : Nat → Exec Value
  | 0 => checkedArray script ⟨base, 0⟩ evaluator.expression fuel
  | dimensions + 1 =>
    checkedArray script ⟨base, dimensions + 1⟩ (do
      if (← currentKind script) = .symbol .leftBracket then
        declaredArray evaluator fuel base dimensions
      else
        evaluator.expression) fuel

/-- The element type of an array literal without a declared type: the type that all elements share,
if they have one that says more than that they are arrays. -/
def sharedType (described : List DeclaredType) : Except Cause (Option DeclaredType) :=
  match described.eraseDups with
  | [] => .ok none
  | [type] => .ok (if type = .simple Tag.array.name then none else some type)
  | types =>
    let texts := types.map DeclaredType.text
    .error (.mixedElements (texts.mergeSort fun left right => !(right < left)))

/-- Reads an array literal without a declared type. Elements of different types are noticed when the
whole literal was read. -/
def freeArray (evaluator : Evaluator) (fuel : Nat) : Exec Value := do
  expectSymbol script .leftBracket
  let items ← separated script .rightBracket evaluator.expression fuel
  expectSymbol script .rightBracket
  match sharedType (items.map (← get).heap.describe) with
  | .ok element => allocate items element
  | .error cause => refuse cause (← current script).position

/-- Reads an operand without prefix operators and without what follows it. Calls are left to the
given action. -/
def primary (evaluator : Evaluator) (call : Exec Value) (fuel : Nat) : Exec Value := do
  let token ← current script
  match token.kind with
  | .numberLiteral =>
    let _ ← advance script
    return .number (.ofLiteral token.word)
  | .stringLiteral | .reference => return .string (← stringLiteral script fuel)
  | .charLiteral =>
    let _ ← advance script
    match token.word.toList with
    | [] => refuse .emptyCharacter token.position
    | char :: _ => return .char char
  | .booleanLiteral =>
    let _ ← advance script
    return .boolean (token.word == "true")
  | .keyword .nullWord =>
    let _ ← advance script
    return .null
  | .symbol .leftParen =>
    let _ ← advance script
    let value ← evaluator.expression
    expectSymbol script .rightParen
    return value
  | .symbol .leftBracket => freeArray script evaluator fuel
  | .identifier =>
    if (← followingKind script) = .symbol .leftParen then
      call
    else
      let _ ← advance script
      valueOf token
  | .symbol .dollar =>
    let _ ← advance script
    valueOf (← expect script .identifier)
  | kind => refuse (.unexpectedToken kind) token.position

/-- The length of an array or a text. Characters have none. -/
def lengthOf (value : Value) (member : Token) : Exec Value := do
  match value with
  | .array address => return .number (.ofNat ((← get).heap.items address).size)
  | .string text => return .number (.ofNat text.length)
  | _ => refuse (.noLength (← describe value)) member.position

/-- Reads the indices and properties that follow an operand. -/
def suffixes (evaluator : Evaluator) : Nat → Value → Exec Value
  | 0, _ => throw .exhausted
  | fuel + 1, value => do
    match ← currentKind script with
    | .symbol .leftBracket =>
      let _ ← advance script
      let token ← current script
      let index ← evaluator.expression
      expectSymbol script .rightBracket
      suffixes evaluator fuel (← elementAt value index token)
    | .symbol .dot =>
      let _ ← advance script
      let member ← expect script .identifier
      if member.word ≠ "length" then
        refuse (.unknownProperty member.word) member.position
      else
        suffixes evaluator fuel (← lengthOf value member)
    | _ => return value

/-- Reads an operand with its prefix operators, which apply from the innermost to the outermost. -/
def unary (evaluator : Evaluator) (call : Exec Value) : Nat → Exec Value
  | 0 => throw .exhausted
  | fuel + 1 => do
    let token ← current script
    match token.kind.unary? with
    | some operator =>
      let _ ← advance script
      applyUnary token operator (← unary evaluator call fuel)
    | none => suffixes script evaluator fuel (← primary script evaluator call fuel)

/-- Goes on with operators of one rank, which associate to the left. -/
def chain (rank : Rank) (operand : Exec Value) : Nat → Value → Exec Value
  | 0, _ => throw .exhausted
  | fuel + 1, left => do
    let token ← current script
    match token.kind.binaryOf? rank with
    | some operator =>
      let _ ← advance script
      let right ← operand
      chain rank operand fuel (← applyBinary token operator left right)
    | none => return left

/-- Reads operands joined by operators of one rank. -/
def ranked (rank : Rank) (operand : Exec Value) (fuel : Nat) : Exec Value := do
  chain script rank operand fuel (← operand)

/-- The answer to a type test, or the result of a conversion, for the type named by a token. -/
def testOrConvert (test : Bool) (value : Value) (target : Token) : Exec Value := do
  if test then
    match (← get).heap.isType? value target.word with
    | some answer => return .boolean answer
    | none => refuse (.unsupportedType target.word) target.position
  else
    located target.position ((← get).heap.convert value target.word)

/-- Goes on with type tests and conversions, from left to right. -/
def typeTests : Nat → Value → Exec Value
  | 0, _ => throw .exhausted
  | fuel + 1, value => do
    let operator ← currentKind script
    if operator = .keyword .isWord ∨ operator = .keyword .asWord then
      let _ ← advance script
      let target ← current script
      if target.kind.isType then
        let _ ← advance script
        typeTests fuel (← testOrConvert (operator = .keyword .isWord) value target)
      else
        refuse (.unsupportedType target.shown) target.position
    else
      return value

/-- Reads products of operands. -/
def multiplicative (evaluator : Evaluator) (call : Exec Value) (fuel : Nat) : Exec Value :=
  ranked script .product (unary script evaluator call fuel) fuel

/-- Reads sums of products. -/
def additive (evaluator : Evaluator) (call : Exec Value) (fuel : Nat) : Exec Value :=
  ranked script .sum (multiplicative script evaluator call fuel) fuel

/-- Reads a sum with the type tests and conversions after it. -/
def typeTest (evaluator : Evaluator) (call : Exec Value) (fuel : Nat) : Exec Value := do
  typeTests script fuel (← additive script evaluator call fuel)

/-- Reads at most one comparison: comparisons do not chain. -/
def comparison (evaluator : Evaluator) (call : Exec Value) (fuel : Nat) : Exec Value := do
  let left ← typeTest script evaluator call fuel
  let token ← current script
  match token.kind.binaryOf? .comparison with
  | some operator =>
    let _ ← advance script
    let right ← typeTest script evaluator call fuel
    applyBinary token operator left right
  | none => return left

/-- Reads a conjunction of comparisons. -/
def conjunction (evaluator : Evaluator) (call : Exec Value) (fuel : Nat) : Exec Value :=
  ranked script .conjunction (comparison script evaluator call fuel) fuel

/-- Reads a disjunction of conjunctions, which is an expression. -/
def disjunction (evaluator : Evaluator) (call : Exec Value) (fuel : Nat) : Exec Value :=
  ranked script .disjunction (conjunction script evaluator call fuel) fuel

end

end Exec

end Onepass
