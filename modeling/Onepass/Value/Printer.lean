import Onepass.Decimal.Printer
import Onepass.Text.Quoted
import Onepass.Value.Basic

/-! # Values as text

The text of a value is what a program prints for it. Messages show it with texts and characters in
quotes, and nothing inside the quotes is escaped. Dumps show the form from which a value could be
built again. An array that holds itself has no finite text; a nesting deeper than the number of
arrays in the heap shows that.
-/

set_option autoImplicit false

namespace Onepass

/-- How the text of a value is formed from the texts of its parts. -/
structure ValueStyle where
  null : String
  boolean : Bool → String
  number : Decimal → String
  string : String → String
  char : Char → String
  array : List String → Option DeclaredType → String

namespace ValueStyle

/-- What programs print. -/
def plain : ValueStyle where
  null := "null"
  boolean value := if value then "true" else "false"
  number := Decimal.text
  string text := text
  char := String.singleton
  array items _ := "[" ++ ", ".intercalate items ++ "]"

/-- What messages show: as printed, with texts in double quotes and characters in apostrophes. -/
def quoting : ValueStyle where
  null := plain.null
  boolean := plain.boolean
  number := plain.number
  string text := "\"" ++ text ++ "\""
  char value := "'" ++ String.singleton value ++ "'"
  array := plain.array

/-- What dumps show: the form from which the value could be built again. -/
def building : ValueStyle where
  null := "None"
  boolean value := if value then "True" else "False"
  number value := "Decimal('" ++ value.scientific ++ "')"
  string := Text.quoted
  char value := "Char(" ++ Text.quoted (String.singleton value) ++ ")"
  array items type :=
    "Array([" ++ ", ".intercalate items ++ "], " ++ (type.map DeclaredType.text).getD "None" ++ ")"

end ValueStyle

namespace Heap

/-- The text of a value through at most so many levels of arrays. -/
def textWithin (heap : Heap) (style : ValueStyle) : Nat → Value → Option String
  | _, .null => some style.null
  | _, .boolean value => some (style.boolean value)
  | _, .number value => some (style.number value)
  | _, .string value => some (style.string value)
  | _, .char value => some (style.char value)
  | 0, .array _ => none
  | depth + 1, .array address => do
    let items ← (heap.items address).toList.mapM (heap.textWithin style depth)
    return style.array items (heap.elementType? address)

/-- The text of a value in a style; there is none for an array that holds itself. -/
def text? (heap : Heap) (style : ValueStyle) (value : Value) : Option String :=
  heap.textWithin style heap.size value

end Heap

end Onepass
