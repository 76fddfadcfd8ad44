import Onepass.Value.Basic

/-! # Equality and order of values

Elements of arrays are compared more freely than values on their own: a character equals the text
that consists of it, a truth value equals the number one or zero, and different tags are merely
unequal. Two references to one array are equal without a look inside. Element types play no role.

Comparing arrays that hold themselves may never come to an end. A nesting deeper than the number of
arrays in the heap shows that, and gives no answer.
-/

set_option autoImplicit false

namespace Onepass

namespace Decimal

/-- Whether two decimals are numerically equal. -/
def equals (left right : Decimal) : Bool :=
  left.order right == .eq

/-- The number that a truth value counts as among the elements of arrays. -/
def ofBool (value : Bool) : Decimal :=
  ofNat value.toNat

end Decimal

/-- Equality of elements that are not both arrays. -/
def Value.equalElements : Value → Value → Bool
  | .null, .null => true
  | .boolean left, .boolean right => left == right
  | .number left, .number right => left.equals right
  | .boolean left, .number right => (Decimal.ofBool left).equals right
  | .number left, .boolean right => left.equals (Decimal.ofBool right)
  | .string left, .string right => left == right
  | .char left, .char right => left == right
  | .string left, .char right => left == String.singleton right
  | .char left, .string right => String.singleton left == right
  | _, _ => false

namespace Heap

/-- Compares two lists pairwise until two elements differ; lists of different lengths are
unequal. -/
def equalLists (equal : Value → Value → Option Bool) : List Value → List Value → Option Bool
  | [], [] => some true
  | left :: lefts, right :: rights => do
    if ← equal left right then equalLists equal lefts rights else some false
  | _, _ => some false

/-- Compares two elements through at most so many levels of arrays. -/
def equalWithin (heap : Heap) : Nat → Value → Value → Option Bool
  | 0, _, _ => none
  | depth + 1, .array left, .array right =>
    if left = right then some true
    else if (heap.items left).size ≠ (heap.items right).size then some false
    else
      equalLists (heap.equalWithin depth) (heap.items left).toList (heap.items right).toList
  | _ + 1, left, right => some (left.equalElements right)

/-- Whether two values of the same tag are equal; no answer if that takes an endless comparison. -/
def equal? (heap : Heap) (left right : Value) : Option Bool :=
  heap.equalWithin (heap.size + 1) left right

end Heap

/-- The order of two numbers, two texts or two characters; texts are ordered by code points. Other
pairs of values have no order. -/
def Value.order? : Value → Value → Option Ordering
  | .number left, .number right => some (left.order right)
  | .string left, .string right => some (compare left right)
  | .char left, .char right => some (compare left right)
  | _, _ => none

end Onepass
