/-! # Declared types

A declared type is a base word with a number of array dimensions, written as the word followed by
one pair of brackets for each dimension. Which base words a program may use is not decided here.
-/

set_option autoImplicit false

namespace Onepass

/-- A base word and a number of array dimensions. -/
structure DeclaredType where
  base : String
  dimensions : Nat
  deriving DecidableEq, Repr

namespace DeclaredType

/-- Whether a character belongs to the brackets at the end of a type's name. -/
def isBracket (char : Char) : Bool :=
  char == '[' || char == ']'

/-- Reads a name: all brackets at its end are removed, and every two of them make a dimension. -/
def ofName (name : String) : DeclaredType :=
  let chars := name.toList
  let base := (chars.reverse.dropWhile isBracket).reverse
  ⟨String.ofList base, (chars.length - base.length) / 2⟩

/-- A type without dimensions. -/
def simple (base : String) : DeclaredType :=
  ⟨base, 0⟩

/-- The type of a function without a result. -/
def void : DeclaredType :=
  simple "void"

/-- Whether values of the type are arrays. -/
def isArray (type : DeclaredType) : Bool :=
  0 < type.dimensions

/-- The type with so many dimensions removed. -/
def peel (type : DeclaredType) (count : Nat) : DeclaredType :=
  { type with dimensions := type.dimensions - count }

/-- The type of the elements of an array type. -/
def element? (type : DeclaredType) : Option DeclaredType :=
  if type.isArray then some (type.peel 1) else none

/-- The type of arrays with such elements. -/
def arrayOf (type : DeclaredType) : DeclaredType :=
  { type with dimensions := type.dimensions + 1 }

/-- The written form of the type. -/
def text (type : DeclaredType) : String :=
  type.base ++ String.join (List.replicate type.dimensions "[]")

/-- The base words that declarations may use. Untyped arrays cannot be declared. -/
def declarable : List String :=
  ["number", "string", "boolean", "char", "null", "void"]

end DeclaredType

end Onepass
