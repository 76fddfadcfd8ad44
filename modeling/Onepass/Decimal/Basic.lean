/-! # Decimal numbers

A decimal is a sign, a coefficient and an exponent, and denotes `± coefficient · 10 ^ exponent`. The
scale is part of the number: `1.5` and `1.50` are equal in value and different as decimals, and so
are the two zeros. Nothing here rounds, and no comparison writes out the zeros that a large exponent
stands for.
-/

set_option autoImplicit false

namespace Onepass

/-- A sign, a coefficient and an exponent. -/
structure Decimal where
  negative : Bool
  coefficient : Nat
  exponent : Int
  deriving DecidableEq, Repr, Inhabited

namespace Decimal

/-- A natural number as a decimal without fraction. -/
def ofNat (number : Nat) : Decimal :=
  ⟨false, number, 0⟩

/-- The number one, the step of every count. -/
def one : Decimal :=
  ofNat 1

/-- Whether the number is a zero, of either sign and any scale. -/
def isZero (number : Decimal) : Bool :=
  number.coefficient == 0

/-- The power of ten with the given exponent. -/
def powerOfTen (exponent : Nat) : Nat :=
  Nat.pow 10 exponent

/-- A coefficient with zeros appended. Zero stays zero however many are asked for, so that the power
of ten is formed only where it is needed. -/
def shift (coefficient zeros : Nat) : Nat :=
  if coefficient == 0 then 0 else coefficient * powerOfTen zeros

/-- The coefficient that the number has at a smaller or equal exponent. -/
def coefficientAt (number : Decimal) (exponent : Int) : Nat :=
  shift number.coefficient (number.exponent - exponent).toNat

/-- The coefficient with its sign, at a smaller or equal exponent. -/
def signedAt (number : Decimal) (exponent : Int) : Int :=
  if number.negative then -(number.coefficientAt exponent : Int) else number.coefficientAt exponent

/-- Counts the digits upward from a count that is known not to be too large. -/
def digitCountFrom (number count : Nat) : Nat :=
  if number < powerOfTen count then count else digitCountFrom number (count + 1)
termination_by number - count
decreasing_by
  have : count < powerOfTen count := Nat.lt_pow_self (by decide)
  omega

/-- The number of decimal digits; zero has one. The search starts at an estimate from the binary
length: `10 ^ 1233 < 2 ^ 4096`, so the estimate is never too large. -/
def digitCount (number : Nat) : Nat :=
  digitCountFrom number (Nat.log2 number * 1233 / 4096 + 1)

/-- The exponent of the leading digit. -/
def adjusted (number : Decimal) : Int :=
  number.exponent + digitCount number.coefficient - 1

/-- The order of the absolute values. Leading digits at different places decide at once; otherwise
the exponents are close enough to each other to compare coefficients at the smaller one. -/
def compareMagnitude (left right : Decimal) : Ordering :=
  if left.isZero || right.isZero || left.exponent == right.exponent then
    compare left.coefficient right.coefficient
  else
    match compare left.adjusted right.adjusted with
    | .eq =>
      let exponent := min left.exponent right.exponent
      compare (left.coefficientAt exponent) (right.coefficientAt exponent)
    | order => order

/-- The numerical order. The zeros are equal to each other whatever their signs and scales. -/
def order (left right : Decimal) : Ordering :=
  if left.isZero && right.isZero then .eq
  else if left.isZero then if right.negative then .gt else .lt
  else if right.isZero then if left.negative then .lt else .gt
  else
    match left.negative, right.negative with
    | false, false => compareMagnitude left right
    | true, true => compareMagnitude right left
    | false, true => .gt
    | true, false => .lt

/-- Whether the number has no fractional part. -/
def isIntegral (number : Decimal) : Bool :=
  if 0 ≤ number.exponent || number.isZero then true
  else if number.adjusted < 0 then false
  else number.coefficient % powerOfTen (-number.exponent).toNat == 0

/-- The integer that the number is when it has no fractional part; a fraction is cut off. -/
def truncated (number : Decimal) : Int :=
  let magnitude : Nat :=
    if 0 ≤ number.exponent then shift number.coefficient number.exponent.toNat
    else if number.adjusted < 0 then 0
    else number.coefficient / powerOfTen (-number.exponent).toNat
  if number.negative then -(magnitude : Int) else magnitude

end Decimal

end Onepass
