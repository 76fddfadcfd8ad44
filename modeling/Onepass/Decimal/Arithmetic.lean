import Onepass.Decimal.Basic

/-! # Arithmetic on decimals

Sums, differences, products and remainders are exact; quotients are rounded to 34 significant
digits, with ties to the even neighbour. Each operation has a preferred exponent, and an exact
result is written as close to it as the number of digits allows. Exponents are bounded: a result
whose leading digit lies beyond the largest exponent is a fault, one below the smallest is rounded
to the last place that still exists. Digits are bounded too: no memory holds an exact result with
more than `exactDigits` of them, so that a sum or a product that needs more is refused.
-/

set_option autoImplicit false

namespace Onepass.Decimal

/-- Why an operation has no result. -/
inductive Fault where
  /-- The leading digit lies beyond the largest exponent. -/
  | overflow
  /-- The integer quotient of a remainder has more digits than a number can hold. -/
  | invalid
  deriving DecidableEq, Repr

/-- The word by which messages name a fault. -/
def Fault.word : Fault → String
  | .overflow => "Overflow"
  | .invalid => "InvalidOperation"

/-- Why a sum or a product is not formed. -/
inductive Refusal where
  /-- It does not exist. -/
  | fault (fault : Fault)
  /-- It has more digits than there is memory for. -/
  | tooLong
  deriving DecidableEq, Repr

/-- The largest exponent of a leading digit; the smallest is its negation. -/
def maxExponent : Int := 999999999999999999

/-- How many digits the coefficient of an exact result may have. -/
def exactDigits : Nat := 999999999999999999

/-- How many digits the coefficient of a quotient may have. -/
def quotientDigits : Nat := 34

/-- The exponent of the last place that exists when coefficients have so many digits. -/
def lastPlace (digits : Nat) : Int :=
  -maxExponent - (digits - 1)

/-- A quotient of natural numbers rounded to the nearest natural number, a tie to the even one. -/
def roundedQuotient (dividend divisor : Nat) : Nat :=
  let quotient := dividend / divisor
  let twice := 2 * (dividend % divisor)
  if twice < divisor then quotient
  else if divisor < twice then quotient + 1
  else if quotient % 2 == 0 then quotient else quotient + 1

/-- Brings an exact result, whose coefficient has at most so many digits, into the range of exponents
for such coefficients. A zero keeps its sign and takes the nearest exponent; another number may
overflow, or is rounded to the last place if it reaches below it. -/
def intoRange (digits : Nat) (number : Decimal) : Except Fault Decimal :=
  let last := lastPlace digits
  if number.isZero then
    .ok { number with exponent := max last (min number.exponent maxExponent) }
  else if maxExponent < number.adjusted then
    .error .overflow
  else if number.exponent < last then
    let dropped := (last - number.exponent).toNat
    let coefficient :=
      if digitCount number.coefficient < dropped then 0
      else roundedQuotient number.coefficient (powerOfTen dropped)
    .ok { number with coefficient, exponent := last }
  else
    .ok number

/-- The number with the opposite sign, also for a zero. -/
def opposite (number : Decimal) : Decimal :=
  { number with negative := !number.negative }

/-- The exact sum at the smaller of the two exponents, before the range of exponents is looked at. A
zero sum is negative only if both terms are. -/
def exactSum (left right : Decimal) : Decimal :=
  let exponent := min left.exponent right.exponent
  let sum := left.signedAt exponent + right.signedAt exponent
  { negative := if sum = 0 then left.negative && right.negative else sum < 0
    coefficient := sum.natAbs
    exponent }

/-- How many digits the coefficient of the number has at a smaller or equal exponent, told without
writing out the zeros. -/
def digitsAt (number : Decimal) (exponent : Int) : Nat :=
  if number.isZero then 1
  else digitCount number.coefficient + (number.exponent - exponent).toNat

/-- Whether the exact sum has more than `exactDigits` digits. The digits of the terms tell it at once
where no carry and no borrowing can make the difference; only otherwise is the sum formed. -/
def sumTooLong (left right : Decimal) : Bool :=
  let exponent := min left.exponent right.exponent
  let longer := max (left.digitsAt exponent) (right.digitsAt exponent)
  let shorter := min (left.digitsAt exponent) (right.digitsAt exponent)
  if longer < exactDigits then false
  else if left.negative == right.negative && exactDigits < longer then true
  else if exactDigits + 1 < longer && shorter + 1 < longer then true
  else exactDigits < digitCount (exactSum left right).coefficient

/-- The sum. It needs no place below those of its terms, so it is refused rather than rounded where it
has too many digits. -/
def add (left right : Decimal) : Except Refusal Decimal :=
  if sumTooLong left right then .error .tooLong
  else
    let sum := exactSum left right
    if !sum.isZero && maxExponent < sum.adjusted then .error (.fault .overflow) else .ok sum

/-- The difference: the sum with the opposite of the second number. -/
def sub (left right : Decimal) : Except Refusal Decimal :=
  add left right.opposite

/-- The exact product: signs and exponents combine, zeros included. -/
def exactProduct (left right : Decimal) : Decimal :=
  { negative := left.negative != right.negative
    coefficient := left.coefficient * right.coefficient
    exponent := left.exponent + right.exponent }

/-- The product. -/
def mul (left right : Decimal) : Except Refusal Decimal :=
  let product := exactProduct left right
  if exactDigits < digitCount product.coefficient then .error .tooLong
  else (intoRange exactDigits product).mapError .fault

/-- The negation. Both zeros give the positive one. -/
def neg (number : Decimal) : Decimal :=
  { number with negative := !number.negative && !number.isZero }

/-- Moves the exponent of a coefficient toward the preferred one as long as only zeros are
dropped. -/
def dropZeros (preferred : Int) (coefficient : Nat) (exponent : Int) : Nat × Int :=
  if 0 < coefficient ∧ exponent < preferred ∧ coefficient % 10 = 0 then
    dropZeros preferred (coefficient / 10) (exponent + 1)
  else
    (coefficient, exponent)
termination_by coefficient
decreasing_by omega

/-- The dividend and the divisor whose quotient is `left / right` in units of `10 ^ place`, for
positive coefficients. -/
def fractionAt (left right : Decimal) (place : Int) : Nat × Nat :=
  let zeros := left.exponent - right.exponent - place
  if 0 ≤ zeros then (left.coefficient * powerOfTen zeros.toNat, right.coefficient)
  else (left.coefficient, right.coefficient * powerOfTen (-zeros).toNat)

/-- The place at which the quotient of two numbers that are not zero has exactly so many digits
before the point. The leading digits of the two coefficients tell it but for one place. -/
def quotientPlace (digits : Nat) (left right : Decimal) : Int :=
  let place := left.adjusted - right.adjusted - (digits - 1)
  let (dividend, divisor) := fractionAt left right place
  if dividend < divisor * powerOfTen (digits - 1) then place - 1 else place

/-- The quotient of two numbers, the second of which is not zero. The preferred exponent is the
difference of the exponents. A quotient that does not even reach the digit after the last place is
zero; any other is rounded once, at the place of its last digit. -/
def div (left right : Decimal) : Except Fault Decimal :=
  let negative := left.negative != right.negative
  let preferred := left.exponent - right.exponent
  let last := lastPlace quotientDigits
  let place := quotientPlace quotientDigits left right
  if left.isZero then
    intoRange quotientDigits ⟨negative, 0, preferred⟩
  else if place + quotientDigits < last then
    .ok ⟨negative, 0, last⟩
  else
    let place := max place last
    let (dividend, divisor) := fractionAt left right place
    let coefficient := roundedQuotient dividend divisor
    let (coefficient, exponent) :=
      if dividend % divisor = 0 then dropZeros preferred coefficient place
      else if digitCount coefficient ≤ quotientDigits then (coefficient, place)
      else (coefficient / 10, place + 1)
    intoRange quotientDigits ⟨negative, coefficient, exponent⟩

/-- The remainder of the division toward zero, by a number that is not zero. It has the sign of the
dividend, also when it is zero, and the smaller of the two exponents. The integer quotient may have
at most `exactDigits` digits. -/
def rem (left right : Decimal) : Except Fault Decimal :=
  let exponent := min left.exponent right.exponent
  if left.isZero then
    intoRange exactDigits ⟨left.negative, 0, exponent⟩
  else if left.adjusted < right.adjusted then
    intoRange exactDigits ⟨left.negative, left.coefficientAt exponent, exponent⟩
  else if (left.compareMagnitude { right with exponent := right.exponent + exactDigits }).isGE then
    .error .invalid
  else
    let coefficient := left.coefficientAt exponent % right.coefficientAt exponent
    intoRange exactDigits ⟨left.negative, coefficient, exponent⟩

/-- The values of a counting loop that are still to come: where it starts, how far it goes and by
which steps, and the value that it gave last, if it has given one. -/
structure Progression where
  first : Decimal
  bound : Decimal
  step : Decimal
  last : Option Decimal
  deriving DecidableEq, Repr

namespace Progression

/-- The progression that starts at a number and goes by steps up or down to a bound. -/
def start (first bound step : Decimal) : Progression :=
  ⟨first, bound, step, none⟩

/-- The value after the last one: the sum of that and the step. It is formed only when it is asked
for, and may be refused. -/
def successor (progression : Progression) : Except Refusal Decimal :=
  match progression.last with
  | none => .ok progression.first
  | some last => last.add progression.step

/-- Whether a value has not passed the bound, seen in the direction of the step. -/
def reaches (progression : Progression) (value : Decimal) : Bool :=
  if progression.step.order (ofNat 0) == .gt then (value.order progression.bound).isLE
  else (value.order progression.bound).isGE

/-- The next value and what comes after it, or nothing when the bound is passed. -/
def next? (progression : Progression) : Except Refusal (Option (Decimal × Progression)) := do
  let value ← progression.successor
  if progression.reaches value then
    return some (value, { progression with last := some value })
  else
    return none

end Progression

end Onepass.Decimal
