import Onepass.Decimal.Arithmetic
import Onepass.Decimal.Printer
import Onepass.Text.Quoted
import Onepass.Token.Kind
import Onepass.Value.Basic

/-! # What can be wrong with a program

Every cause for refusing a program, with its wording and its category. A cause says nothing about
where in the script it arose.
-/

set_option autoImplicit false

namespace Onepass

/-- The categories of causes. -/
inductive Category where
  /-- A character that belongs to no token. -/
  | lexical
  /-- A token where the grammar wants another one. -/
  | grammar
  /-- A name that is missing or declared twice. -/
  | name
  /-- A change of something constant. -/
  | constant
  /-- A value of an unfitting type. -/
  | type
  /-- An index without an element. -/
  | index
  /-- A value of the fitting type that cannot be used. -/
  | value
  /-- A division by zero. -/
  | zeroDivision
  /-- A transfer of control without a target. -/
  | control
  deriving DecidableEq, Repr

/-- Why a program is refused. Types of values stand as messages describe them. -/
inductive Cause where
  | strayCharacter (char : Char)
  | expected (expected found : Kind)
  | expectedType (found : Kind)
  | statementStart
  | unexpectedToken (found : Kind)
  | variableDeclared (name : String)
  | undefinedVariable (name : String)
  | duplicateParameter (parameter function : String)
  | functionDeclared (name : String)
  | undefinedFunction (name : String)
  | unknownProperty (name : String)
  | constantReassigned (name : String)
  | unsupportedType (shown : String)
  | voidVariable (name : String)
  | assignmentMismatch (found expected : DeclaredType)
  | notAnArray (name : String)
  | notBoolean (found : DeclaredType)
  | boundNotNumber (found : DeclaredType)
  | notIterable (found : DeclaredType)
  | loopMismatch (expected found : DeclaredType)
  | returnMismatch (function : String) (expected found : DeclaredType)
  | argumentCount (function : String) (expected found : Nat)
  | argumentMismatch (parameter function : String) (expected found : DeclaredType)
  | noLength (found : DeclaredType)
  /-- The types are given as texts in ascending order. -/
  | mixedElements (found : List String)
  | indexNotNumber (found : DeclaredType)
  | notIndexable (found : DeclaredType)
  | operandMismatch (operator : Symbol) (left right : Tag)
  | negatedOperand (found : Tag)
  | invertedOperand (found : Tag)
  | fractionalIndex (index : Decimal)
  | indexOutOfBounds (index : Int)
  | zeroStep
  | emptyCharacter
  | numberOutOfRange (fault : Decimal.Fault)
  | notConvertible (found : Tag) (shown target : String)
  | divisionByZero
  | jumpOutsideLoop (jump : Kind)
  | returnOutsideFunction
  | missingReturn (function : String) (expected : DeclaredType)
  | callDepth (limit : Nat)
  deriving DecidableEq, Repr

namespace Cause

/-- The category of a cause. -/
def category : Cause → Category
  | strayCharacter .. => .lexical
  | expected .. | expectedType .. | statementStart | unexpectedToken .. => .grammar
  | variableDeclared .. | undefinedVariable .. | duplicateParameter .. | functionDeclared ..
  | undefinedFunction .. | unknownProperty .. => .name
  | constantReassigned .. => .constant
  | unsupportedType .. | voidVariable .. | assignmentMismatch .. | notAnArray .. | notBoolean ..
  | boundNotNumber .. | notIterable .. | loopMismatch .. | returnMismatch .. | argumentCount ..
  | argumentMismatch .. | noLength .. | mixedElements .. | indexNotNumber .. | notIndexable ..
  | operandMismatch .. | negatedOperand .. | invertedOperand .. => .type
  | fractionalIndex .. | indexOutOfBounds .. => .index
  | zeroStep | emptyCharacter | numberOutOfRange .. | notConvertible .. => .value
  | divisionByZero => .zeroDivision
  | jumpOutsideLoop .. | returnOutsideFunction | missingReturn .. | callDepth .. => .control

/-- A text between apostrophes. -/
def marked (text : String) : String :=
  "'" ++ text ++ "'"

/-- The wording of a cause. -/
def message : Cause → String
  | strayCharacter char => "Unexpected character " ++ Text.quoted (String.singleton char)
  | expected wanted found =>
    "Expected " ++ marked wanted.description ++ ", found " ++ marked found.description
  | expectedType found => "Expected a type, found " ++ marked found.description
  | statementStart => "Invalid start of statement"
  | unexpectedToken found => "Unexpected token " ++ marked found.description ++ " in expression"
  | variableDeclared name => "Variable " ++ marked name ++ " already declared"
  | undefinedVariable name => "Undefined variable: " ++ name
  | duplicateParameter parameter function =>
    "Duplicate parameter " ++ marked parameter ++ " in function " ++ marked function
  | functionDeclared name => "Function " ++ marked name ++ " already declared"
  | undefinedFunction name => "Undefined function: " ++ name
  | unknownProperty name => "Unknown property: " ++ name
  | constantReassigned name => "Cannot reassign constant variable: " ++ name
  | unsupportedType shown => "Unsupported type: " ++ shown
  | voidVariable name => "Cannot declare variable " ++ marked name ++ " of type void"
  | assignmentMismatch found wanted =>
    "Type mismatch: Cannot assign " ++ found.text ++ " to " ++ wanted.text
  | notAnArray name => "Variable " ++ marked name ++ " is not an array"
  | notBoolean found => "Expected a boolean expression, found " ++ found.text
  | boundNotNumber found => "Range bounds must be numbers, found " ++ found.text
  | notIterable found => "Cannot iterate over " ++ found.text
  | loopMismatch wanted found =>
    "Type mismatch: Expected " ++ wanted.text ++ ", found " ++ found.text
  | returnMismatch function wanted found =>
    "Type mismatch: Function " ++ marked function ++ " returns " ++ wanted.text ++ ", found " ++
      found.text
  | argumentCount function wanted found =>
    "Function " ++ marked function ++ " expects " ++ toString wanted ++ " argument(s), got " ++
      toString found
  | argumentMismatch parameter function wanted found =>
    "Type mismatch: Parameter " ++ marked parameter ++ " of " ++ marked function ++ " expects " ++
      wanted.text ++ ", found " ++ found.text
  | noLength found => "Cannot get length of " ++ found.text
  | mixedElements found => "Array elements must share one type, found " ++ ", ".intercalate found
  | indexNotNumber found => "Array index must be a number, found " ++ found.text
  | notIndexable found => "Cannot index into " ++ found.text
  | operandMismatch operator left right =>
    "Invalid operation between types: " ++ left.name ++ " " ++ operator.spelling ++ " " ++
      right.name
  | negatedOperand found => "Invalid operand for unary -: " ++ found.name
  | invertedOperand found => "Invalid operand for !: " ++ found.name
  | fractionalIndex index => "Array index must be an integer: " ++ index.text
  | indexOutOfBounds index => "Array index out of bounds: " ++ toString index
  | zeroStep => "Step cannot be zero"
  | emptyCharacter => "Empty character literal"
  | numberOutOfRange fault => "Numeric result out of range (" ++ fault.word ++ ")"
  | notConvertible found shown target =>
    "Cannot convert " ++ found.name ++ " " ++ shown ++ " to " ++ target
  | divisionByZero => "Division by zero"
  | jumpOutsideLoop jump => marked jump.description ++ " outside of loop"
  | returnOutsideFunction => "'return' outside of function"
  | missingReturn function wanted =>
    "Function " ++ marked function ++ " must return a value of type " ++ wanted.text
  | callDepth limit => "Maximum call depth of " ++ toString limit ++ " exceeded"

end Cause

end Onepass
