import Onepass.Decimal.Basic
import Onepass.Value.Type

/-! # Values and the heap of arrays

Values are small: numbers, texts, characters, truth values, null, and references to arrays. Arrays
live in a heap, so that everything that holds a reference to an array sees the same elements. An
array may carry the declared type of its elements; values themselves carry no type but their tag.
-/

set_option autoImplicit false

namespace Onepass

/-- What kind of thing a value is. -/
inductive Tag where
  | null | boolean | number | string | char | array
  deriving DecidableEq, Repr

/-- The word for a tag in programs and messages. -/
def Tag.name : Tag → String
  | .null => "null"
  | .boolean => "boolean"
  | .number => "number"
  | .string => "string"
  | .char => "char"
  | .array => "array"

/-- Where an array is kept. -/
abbrev Address := Nat

/-- A value of the language. -/
inductive Value where
  | null
  | boolean (value : Bool)
  | number (value : Decimal)
  | string (value : String)
  | char (value : Char)
  | array (address : Address)
  deriving DecidableEq, Repr, Inhabited

/-- The tag of a value. -/
def Value.tag : Value → Tag
  | .null => .null
  | .boolean _ => .boolean
  | .number _ => .number
  | .string _ => .string
  | .char _ => .char
  | .array _ => .array

/-- The elements of an array and their declared type, if they have one. -/
structure Cell where
  items : Array Value
  elementType : Option DeclaredType
  deriving DecidableEq, Repr, Inhabited

/-- All arrays that were ever made, in the order in which they were made. -/
structure Heap where
  cells : Array Cell
  deriving DecidableEq, Repr, Inhabited

namespace Heap

/-- The heap without arrays. -/
def empty : Heap :=
  ⟨#[]⟩

/-- How many arrays there are. -/
def size (heap : Heap) : Nat :=
  heap.cells.size

/-- The elements of an array. -/
def items (heap : Heap) (address : Address) : Array Value :=
  (heap.cells[address]?.map Cell.items).getD #[]

/-- The declared type of the elements of an array. -/
def elementType? (heap : Heap) (address : Address) : Option DeclaredType :=
  heap.cells[address]?.bind Cell.elementType

/-- Makes a new array. -/
def allocate (heap : Heap) (items : Array Value) (elementType : Option DeclaredType) :
    Heap × Address :=
  (⟨heap.cells.push ⟨items, elementType⟩⟩, heap.cells.size)

/-- Replaces one element of an array; a place that does not exist is left alone. -/
def write (heap : Heap) (address : Address) (index : Nat) (value : Value) : Heap :=
  ⟨heap.cells.modify address fun cell =>
    { cell with items := cell.items.setIfInBounds index value }⟩

/-- Declares the type of the elements of an array. -/
def declareElements (heap : Heap) (address : Address) (type : DeclaredType) : Heap :=
  ⟨heap.cells.modify address fun cell => { cell with elementType := some type }⟩

/-- The type that messages give for a value: the element type of an array with a pair of brackets
where it has one, and the tag otherwise. -/
def describe (heap : Heap) (value : Value) : DeclaredType :=
  match value with
  | .array address =>
    match heap.elementType? address with
    | some element => element.arrayOf
    | none => .simple value.tag.name
  | _ => .simple value.tag.name

end Heap

end Onepass
