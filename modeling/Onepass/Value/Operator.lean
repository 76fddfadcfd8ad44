import Onepass.Diagnostic.Cause
import Onepass.Value.Equality
import Onepass.Value.Printer
import Onepass.Decimal.Parser

/-! # Operators and conversions

What the operators and the conversion `as` do to values. The operands are evaluated already; nothing
here changes the heap, and nothing knows about positions in the script.
-/

set_option autoImplicit false

namespace Onepass

/-- What the machine that runs programs has no room for. -/
inductive Limit where
  /-- A number with more digits than exact arithmetic keeps. -/
  | memory
  /-- The text of an integer with more digits than are written out. -/
  | digits
  deriving DecidableEq, Repr

/-- Why an operation gives no value. -/
inductive Fault where
  /-- The program is wrong. -/
  | cause (cause : Cause)
  /-- The result is a number that does not exist. -/
  | number (fault : Decimal.Fault)
  /-- There is no room for the result. -/
  | limit (limit : Limit)
  /-- An array that holds itself has no finite text, and comparing it has no end. -/
  | endless
  deriving DecidableEq, Repr

/-- The binary operators. -/
inductive BinaryOperator where
  | add | sub | mul | div | rem
  | equal | differ | less | greater | lessOrEqual | greaterOrEqual
  | and | or
  deriving DecidableEq, Repr

/-- The symbol of an operator. -/
def BinaryOperator.symbol : BinaryOperator → Symbol
  | .add => .plus
  | .sub => .minus
  | .mul => .asterisk
  | .div => .slash
  | .rem => .percent
  | .equal => .equalEqual
  | .differ => .notEqual
  | .less => .lessThan
  | .greater => .greaterThan
  | .lessOrEqual => .lessOrEqual
  | .greaterOrEqual => .greaterOrEqual
  | .and => .and
  | .or => .or

/-- The operator that a symbol stands for between two expressions. -/
def BinaryOperator.ofSymbol? : Symbol → Option BinaryOperator
  | .plus => some .add
  | .minus => some .sub
  | .asterisk => some .mul
  | .slash => some .div
  | .percent => some .rem
  | .equalEqual => some .equal
  | .notEqual => some .differ
  | .lessThan => some .less
  | .greaterThan => some .greater
  | .lessOrEqual => some .lessOrEqual
  | .greaterOrEqual => some .greaterOrEqual
  | .and => some .and
  | .or => some .or
  | _ => none

/-- The operator that a symbol of compound assignment applies. -/
def BinaryOperator.ofCompound? : Symbol → Option BinaryOperator
  | .plusEqual => some .add
  | .minusEqual => some .sub
  | .asteriskEqual => some .mul
  | .slashEqual => some .div
  | .percentEqual => some .rem
  | _ => none

/-- The unary operators. -/
inductive UnaryOperator where
  | negate | invert
  deriving DecidableEq, Repr

/-- The operator that a symbol stands for before an expression. -/
def UnaryOperator.ofSymbol? : Symbol → Option UnaryOperator
  | .minus => some .negate
  | .bang => some .invert
  | _ => none

/-- The cause for refusing the operands of a binary operator. -/
def BinaryOperator.mismatch (operator : BinaryOperator) (left right : Value) : Fault :=
  .cause (.operandMismatch operator.symbol left.tag right.tag)

/-- Whether a value is a text or a character, and so turns a sum into a concatenation. -/
def Value.isTextual (value : Value) : Bool :=
  value.tag = .string || value.tag = .char

/-- The result of arithmetic as a value. -/
def numberResult : Except Decimal.Fault Decimal → Except Fault Value
  | .ok number => .ok (.number number)
  | .error fault => .error (.number fault)

/-- The result of exact arithmetic as a value. -/
def exactResult : Except Decimal.Refusal Decimal → Except Fault Value
  | .ok number => .ok (.number number)
  | .error (.fault fault) => .error (.number fault)
  | .error .tooLong => .error (.limit .memory)

namespace Heap

/-- The text of a value in a style, which every value but an array that holds itself has. -/
def textOf (heap : Heap) (style : ValueStyle) (value : Value) : Except Fault String :=
  match heap.text? style value with
  | some text => .ok text
  | none => .error .endless

/-- The text of the first value followed by that of the second. -/
def concatenate (heap : Heap) (left right : Value) : Except Fault Value := do
  let first ← heap.textOf .plain left
  let second ← heap.textOf .plain right
  return .string (first ++ second)

/-- Whether two values are equal. Null may be compared with everything; other values have to have
the same tag. The operator appears in the message only. -/
def equality (heap : Heap) (operator : BinaryOperator) (left right : Value) : Except Fault Bool :=
  if left.tag = .null ∨ right.tag = .null then .ok (left.tag = right.tag)
  else if left.tag ≠ right.tag then .error (operator.mismatch left right)
  else
    match heap.equal? left right with
    | some answer => .ok answer
    | none => .error .endless

/-- Whether the order of two values passes the test of an operator. -/
def comparison (operator : BinaryOperator) (test : Ordering → Bool) (left right : Value) :
    Except Fault Value :=
  match left.order? right with
  | some order => .ok (.boolean (test order))
  | none => .error (operator.mismatch left right)

/-- Applies a binary operator. -/
def binary (heap : Heap) (operator : BinaryOperator) (left right : Value) : Except Fault Value :=
  match operator, left, right with
  | .add, .number first, .number second => exactResult (first.add second)
  | .add, _, _ =>
    if left.isTextual || right.isTextual then heap.concatenate left right
    else .error (operator.mismatch left right)
  | .sub, .number first, .number second => exactResult (first.sub second)
  | .mul, .number first, .number second => exactResult (first.mul second)
  | .div, .number first, .number second =>
    if second.isZero then .error (.cause .divisionByZero) else numberResult (first.div second)
  | .rem, .number first, .number second =>
    if second.isZero then .error (.cause .divisionByZero) else numberResult (first.rem second)
  | .equal, _, _ => (heap.equality operator left right).map .boolean
  | .differ, _, _ => (heap.equality operator left right).map fun answer => .boolean !answer
  | .less, _, _ => comparison operator Ordering.isLT left right
  | .greater, _, _ => comparison operator Ordering.isGT left right
  | .lessOrEqual, _, _ => comparison operator Ordering.isLE left right
  | .greaterOrEqual, _, _ => comparison operator Ordering.isGE left right
  | .and, .boolean first, .boolean second => .ok (.boolean (first && second))
  | .or, .boolean first, .boolean second => .ok (.boolean (first || second))
  | _, _, _ => .error (operator.mismatch left right)

/-- The failure of a conversion, which shows the value. -/
def notConvertible (heap : Heap) (value : Value) (target : String) : Except Fault Value := do
  let shown ← heap.textOf .quoting value
  .error (.cause (.notConvertible value.tag shown target))

/-- The number that a text converts to, or the failure for the value that the text comes from. -/
def convertText (heap : Heap) (value : Value) (text : String) : Except Fault Value :=
  match Decimal.ofText? text with
  | some number => .ok (.number number)
  | none => heap.notConvertible value "number"

/-- Converts a number, a text or a character to a number. -/
def toNumber (heap : Heap) (value : Value) : Except Fault Value :=
  match value with
  | .number _ => .ok value
  | .string text => heap.convertText value text
  | .char char => heap.convertText value (String.singleton char)
  | _ => heap.notConvertible value "number"

/-- Converts a character or a text of one character to a character. -/
def toChar (heap : Heap) (value : Value) : Except Fault Value :=
  match value with
  | .char _ => .ok value
  | .string text =>
    match text.toList with
    | [char] => .ok (.char char)
    | _ => heap.notConvertible value "char"
  | _ => heap.notConvertible value "char"

/-- Converts a truth value or the word for one to a truth value. -/
def toBoolean (heap : Heap) (value : Value) : Except Fault Value :=
  match value with
  | .boolean _ => .ok value
  | .string text =>
    if text = "true" then .ok (.boolean true)
    else if text = "false" then .ok (.boolean false)
    else heap.notConvertible value "boolean"
  | _ => heap.notConvertible value "boolean"

/-- Converts a value to a named type. Every value converts to its own type and to a string, but
neither to null nor to a type with brackets. -/
def convert (heap : Heap) (value : Value) (target : String) : Except Fault Value :=
  match target with
  | "string" => (heap.textOf .plain value).map .string
  | "number" => heap.toNumber value
  | "char" => heap.toChar value
  | "boolean" => heap.toBoolean value
  | "array" => if value.tag = .array then .ok value else heap.notConvertible value target
  | _ => .error (.cause (.unsupportedType target))

end Heap

/-- Applies a unary operator. -/
def UnaryOperator.apply : UnaryOperator → Value → Except Fault Value
  | .negate, .number number => .ok (.number number.neg)
  | .negate, value => .error (.cause (.negatedOperand value.tag))
  | .invert, .boolean value => .ok (.boolean !value)
  | .invert, value => .error (.cause (.invertedOperand value.tag))

end Onepass
