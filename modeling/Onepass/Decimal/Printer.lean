import Onepass.Decimal.Basic

/-! # Decimals as text

Programs print decimals positionally: every digit of the coefficient is written, a fraction keeps
its trailing zeros, and no exponent appears. The one irregularity is the negative zero without a
fraction, which prints as a plain zero. Dumps use the scientific form, which keeps the exponent
readable.
-/

set_option autoImplicit false

namespace Onepass.Decimal

/-- The digits of the coefficient. -/
def digits (number : Decimal) : List Char :=
  Nat.toDigits 10 number.coefficient

/-- The minus sign of a negative number, zeros included. -/
def signText (number : Decimal) : List Char :=
  if number.negative then ['-'] else []

/-- A point before the last `places` digits, with zeros in front so that a digit precedes it.
Without places there is no point. -/
def insertPoint (digits : List Char) (places : Nat) : List Char :=
  if places == 0 then digits
  else
    let padded := List.replicate (places + 1 - digits.length) '0' ++ digits
    padded.take (padded.length - places) ++ '.' :: padded.drop (padded.length - places)

/-- The absolute value in positional notation. A zero with a positive exponent is a single digit. -/
def magnitudeText (number : Decimal) : List Char :=
  if number.exponent < 0 then insertPoint number.digits (-number.exponent).toNat
  else if number.isZero then number.digits
  else number.digits ++ List.replicate number.exponent.toNat '0'

/-- The text that a program prints for the number. -/
def text (number : Decimal) : String :=
  String.ofList <|
    if number.isZero && 0 ≤ number.exponent then number.magnitudeText
    else number.signText ++ number.magnitudeText

/-- The scientific form: positional while the exponent is not positive and the leading digit stands
at most six places behind the point, otherwise one digit before the point and an exponent with its
sign. -/
def scientific (number : Decimal) : String :=
  String.ofList <| number.signText ++
    if number.exponent ≤ 0 && -6 ≤ number.adjusted then
      insertPoint number.digits (-number.exponent).toNat
    else
      let mantissa := insertPoint number.digits (number.digits.length - 1)
      let sign := if number.adjusted < 0 then '-' else '+'
      mantissa ++ 'E' :: sign :: Nat.toDigits 10 number.adjusted.natAbs

end Onepass.Decimal
