import Onepass.Value.Basic

/-! # Values against declared types

A value conforms to an array type if it is an array all of whose elements conform to the type with
one dimension less; the empty array conforms to every array type. Without dimensions the tag
decides, and `void` is the type of null. Retagging declares the element types of an array and of the
arrays in it. Both follow the dimensions of the type, so they end even where an array holds itself.
-/

set_option autoImplicit false

namespace Onepass

/-- Whether a value conforms to a base word without dimensions. -/
def Value.conformsToBase (value : Value) (base : String) : Bool :=
  if base = "void" then value.tag = .null else value.tag.name = base

namespace Heap

/-- Whether a value conforms to a base word with so many dimensions. -/
def conformsTo (heap : Heap) (base : String) : Nat → Value → Bool
  | 0, value => value.conformsToBase base
  | dimensions + 1, .array address => (heap.items address).all (heap.conformsTo base dimensions)
  | _ + 1, _ => false

/-- Whether a value conforms to a declared type. -/
def conforms (heap : Heap) (value : Value) (type : DeclaredType) : Bool :=
  heap.conformsTo type.base type.dimensions value

/-- Declares element types for an array and the arrays in it, down through so many dimensions. -/
def retagTo (base : String) : Nat → Heap → Value → Heap
  | dimensions + 1, heap, .array address =>
    (heap.items address).foldl (retagTo base dimensions)
      (heap.declareElements address ⟨base, dimensions⟩)
  | _, heap, _ => heap

/-- Declares the element types that a declared type gives to a value. -/
def retag (heap : Heap) (value : Value) (type : DeclaredType) : Heap :=
  retagTo type.base type.dimensions heap value

/-- The tags by which a value can be tested. -/
def testableBases : List String :=
  ["number", "string", "boolean", "char", "null"]

/-- The answer to whether a value is of a named type; there is none for names that cannot be tested.
A name with brackets can be tested whatever word stands before them. -/
def isType? (heap : Heap) (value : Value) (name : String) : Option Bool :=
  if name = "array" then some (value.tag = .array)
  else if "[]".toList.isSuffixOf name.toList then
    some (value.tag = .array && heap.conforms value (.ofName name))
  else if name ∈ testableBases then some (value.tag.name = name)
  else none

end Heap

end Onepass
