import Onepass.Decimal.Basic
import Onepass.Text.Blank
import Onepass.Text.Digit

/-! # Decimals from text

The written form of a number: an optional sign, digits with at most one point among or around them,
and an optional exponent. Digits of any script are read by their value. The number keeps the scale
that is written.
-/

set_option autoImplicit false

namespace Onepass.Decimal

open Text (isDigit digitsValue trim)

/-- Splits off an optional sign; the flag tells a minus sign. -/
def readSign : List Char → Bool × List Char
  | '-' :: rest => (true, rest)
  | '+' :: rest => (false, rest)
  | rest => (false, rest)

/-- Splits off the digits after a point, if there is a point. -/
def readFraction : List Char → List Char × List Char
  | '.' :: rest => (rest.takeWhile isDigit, rest.dropWhile isDigit)
  | rest => ([], rest)

/-- Reads digits with an optional sign that make up the whole text. -/
def readInteger? (text : List Char) : Option Int :=
  let (negative, digits) := readSign text
  if digits.isEmpty || !digits.all isDigit then none
  else if negative then some (-(digitsValue digits : Int))
  else some (digitsValue digits)

/-- Reads the exponent that ends a number; nothing at all is the exponent zero. -/
def readExponent? : List Char → Option Int
  | [] => some 0
  | mark :: rest => if mark == 'e' || mark == 'E' then readInteger? rest else none

/-- Reads a number that makes up the whole text. At least one digit stands before or after the
point. -/
def parse? (text : List Char) : Option Decimal :=
  let (negative, rest) := readSign text
  let whole := rest.takeWhile isDigit
  let (fraction, rest) := readFraction (rest.dropWhile isDigit)
  if whole.isEmpty && fraction.isEmpty then none
  else
    (readExponent? rest).map fun exponent =>
      ⟨negative, digitsValue (whole ++ fraction), exponent - fraction.length⟩

/-- The number that a literal of the language denotes. Literals are digits with at most one point,
which always can be read. -/
def ofLiteral (text : String) : Decimal :=
  (parse? text.toList).getD (ofNat 0)

/-- How far the leading digit of a converted text may be from the point. -/
def conversionLimit : Nat := 6144

/-- The number that a text converts to: blanks around it and underscores in it are ignored, and
numbers with a leading digit too far from the point are refused. -/
def ofText? (text : String) : Option Decimal :=
  (parse? ((trim text.toList).filter (· != '_'))).filter
    fun number => number.adjusted.natAbs ≤ conversionLimit

end Onepass.Decimal
