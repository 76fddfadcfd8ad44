import Onepass.Proofs.Decimal.Value
import Onepass.Value.Operator

/-! # Sums, differences and products are exact

A decimal is determined by its value, its exponent and, if it is a zero, its sign. Sums, differences
and products that are not out of range have exactly the value that the operation has on rational
numbers, at an exponent that depends on the exponents of the operands only. So the laws of the rational
operations carry over to decimals, scale and sign of zeros included, where both sides have the same sign
of a zero; the distributive law is one of values only.
-/

set_option autoImplicit false

namespace Onepass

namespace Decimal

/-- Whether the number is a negative zero, of any scale. -/
def negativeZero (number : Decimal) : Bool :=
  number.negative && number.isZero

/-- The number has this value and this exponent, and this sign if it is a zero. -/
structure Denotes (number : Decimal) (value : ℚ) (exponent : Int) (negative : Bool) : Prop where
  value_eq : number.value = value
  exponent_eq : number.exponent = exponent
  sign : value = 0 → number.negative = negative

theorem negative_iff {number : Decimal} (ne : number.value ≠ 0) :
    number.negative = true ↔ number.value < 0 := by
  constructor
  · exact value_neg ne
  · intro below
    by_contra positive
    exact below.asymm (value_pos ne (Bool.not_eq_true _ ▸ positive))

/-- There is only one such number. -/
theorem Denotes.unique {first second : Decimal} {value : ℚ} {exponent : Int} {negative : Bool}
    (one : first.Denotes value exponent negative) (other : second.Denotes value exponent negative) :
    first = second := by
  have values := one.value_eq.trans other.value_eq.symm
  have exponents := one.exponent_eq.trans other.exponent_eq.symm
  have coefficients : first.coefficient = second.coefficient := by
    have magnitudes := congrArg abs values
    rw [abs_value, abs_value, exponents] at magnitudes
    exact_mod_cast mul_right_cancel₀ (ten_zpow_pos _).ne' magnitudes
  have signs : first.negative = second.negative := by
    by_cases zero : value = 0
    · rw [one.sign zero, other.sign zero]
    · rw [Bool.eq_iff_iff, negative_iff (one.value_eq ▸ zero), negative_iff (other.value_eq ▸ zero),
        values]
  cases first
  cases second
  simp_all

/-! ## Sums -/

theorem value_exactSum (left right : Decimal) :
    (exactSum left right).value = left.value + right.value := by
  rw [value_eq_signedAt (exactSum left right) le_rfl]
  change ((exactSum left right).signedAt (min left.exponent right.exponent) : ℚ) *
    10 ^ min left.exponent right.exponent = _
  rw [signedAt_exactSum_exponent, value_eq_signedAt left (min_le_left _ right.exponent),
    value_eq_signedAt right (min_le_right left.exponent _)]
  push_cast
  ring

/-- Two negative numbers whose sum is zero are zeros. -/
theorem negative_and_of_sum {left right : Decimal} (zero : left.value + right.value = 0) :
    (left.negative && right.negative) = (left.negativeZero && right.negativeZero) := by
  unfold negativeZero
  cases leftSign : left.negative <;> cases rightSign : right.negative
  · rfl
  · rfl
  · exact (Bool.and_false _).symm
  · rw [value_of_negative leftSign, value_of_negative rightSign] at zero
    have leftZero : left.value = 0 := by
      rw [← abs_eq_zero]
      linarith [abs_nonneg left.value, abs_nonneg right.value]
    have rightZero : right.value = 0 := by
      rw [← abs_eq_zero]
      linarith [abs_nonneg left.value, abs_nonneg right.value]
    rw [isZero_iff.2 leftZero, isZero_iff.2 rightZero]
    rfl

theorem exactSum_denotes (left right : Decimal) :
    (exactSum left right).Denotes (left.value + right.value) (min left.exponent right.exponent)
      (left.negativeZero && right.negativeZero) := by
  refine ⟨value_exactSum left right, rfl, fun zero => ?_⟩
  have none : left.signedAt (min left.exponent right.exponent) +
      right.signedAt (min left.exponent right.exponent) = 0 := by
    rw [← value_exactSum, value_eq_zero] at zero
    exact Int.natAbs_eq_zero.1 zero
  unfold exactSum
  dsimp only
  rw [if_pos none]
  exact negative_and_of_sum zero

theorem negativeZero_exactSum (left right : Decimal) :
    (exactSum left right).negativeZero = (left.negativeZero && right.negativeZero) := by
  have denotes := exactSum_denotes left right
  by_cases zero : left.value + right.value = 0
  · rw [negativeZero, denotes.sign zero, isZero_iff.2 (denotes.value_eq.trans zero), Bool.and_true]
  · have ne : (exactSum left right).isZero = false :=
      isZero_eq_false_iff.2 (denotes.value_eq ▸ zero)
    rw [negativeZero, ne, Bool.and_false, eq_comm, Bool.and_eq_false_iff]
    unfold negativeZero
    by_contra both
    simp only [Bool.and_eq_false_iff, not_or, Bool.not_eq_false, isZero_iff] at both
    exact zero (by rw [both.1.2, both.2.2, add_zero])

theorem exactSum_comm (left right : Decimal) : exactSum left right = exactSum right left := by
  have swapped := exactSum_denotes right left
  rw [add_comm, min_comm, Bool.and_comm] at swapped
  exact (exactSum_denotes left right).unique swapped

theorem exactSum_assoc (first second third : Decimal) :
    exactSum (exactSum first second) third = exactSum first (exactSum second third) := by
  have left := exactSum_denotes (exactSum first second) third
  have right := exactSum_denotes first (exactSum second third)
  rw [value_exactSum, negativeZero_exactSum, (exactSum_denotes first second).exponent_eq, add_assoc,
    min_assoc, Bool.and_assoc] at left
  rw [value_exactSum, negativeZero_exactSum, (exactSum_denotes second third).exponent_eq] at right
  exact left.unique right

/-- Terms of one sign add up to at least as many digits as each of them has. -/
theorem natAbs_signedAt_add {left right : Decimal} (same : left.negative = right.negative)
    (exponent : Int) :
    (left.signedAt exponent + right.signedAt exponent).natAbs =
      left.coefficientAt exponent + right.coefficientAt exponent := by
  unfold signedAt
  rw [same]
  split <;> omega

/-- Where the digits of the terms decide without the sum, they decide as the sum would. -/
theorem sumTooLong_eq (left right : Decimal) :
    sumTooLong left right = decide (exactDigits < digitCount (exactSum left right).coefficient) := by
  unfold sumTooLong
  dsimp only
  have sum : (exactSum left right).coefficient = (left.signedAt (min left.exponent right.exponent) +
      right.signedAt (min left.exponent right.exponent)).natAbs := rfl
  rw [digitsAt_eq, digitsAt_eq, sum]
  clear sum
  generalize min left.exponent right.exponent = exponent
  have leftAbs := natAbs_signedAt_eq_coefficientAt left exponent
  have rightAbs := natAbs_signedAt_eq_coefficientAt right exponent
  split
  case isTrue short =>
    have most := digitCount_natAbs_add_le (left.signedAt exponent) (right.signedAt exponent)
    rw [leftAbs, rightAbs] at most
    exact (decide_eq_false (by omega)).symm
  split
  case isTrue _ long =>
    rw [Bool.and_eq_true, beq_iff_eq, decide_eq_true_eq] at long
    rw [natAbs_signedAt_add long.1]
    have fromLeft := digitCount_mono (Nat.le_add_right (left.coefficientAt exponent)
      (right.coefficientAt exponent))
    have fromRight := digitCount_mono (Nat.le_add_left (right.coefficientAt exponent)
      (left.coefficientAt exponent))
    exact (decide_eq_true (by omega)).symm
  split
  case isTrue _ _ apart =>
    rw [Bool.and_eq_true, decide_eq_true_eq, decide_eq_true_eq] at apart
    refine (decide_eq_true ?_).symm
    rcases le_total (digitCount (left.coefficientAt exponent))
      (digitCount (right.coefficientAt exponent)) with le | le
    · have least := @digitCount_natAbs_le_add (right.signedAt exponent) (left.signedAt exponent)
        (by rw [leftAbs, rightAbs]; omega)
      rw [rightAbs, Int.add_comm] at least
      omega
    · have least := @digitCount_natAbs_le_add (left.signedAt exponent) (right.signedAt exponent)
        (by rw [leftAbs, rightAbs]; omega)
      rw [leftAbs] at least
      omega
  case isFalse => rfl

theorem sumTooLong_eq_false_iff {left right : Decimal} :
    sumTooLong left right = false ↔
      |left.value + right.value| < 10 ^ (min left.exponent right.exponent + exactDigits) := by
  rw [sumTooLong_eq, decide_eq_false_iff_not, not_lt, digitCount_coefficient_le_iff (by decide),
    value_exactSum, (exactSum_denotes left right).exponent_eq]

/-- A sum is the exact one unless it has too many digits or its leading digit lies beyond the largest
exponent. -/
theorem add_eq (left right : Decimal) :
    left.add right =
      if sumTooLong left right then .error .tooLong
      else if |left.value + right.value| < limit then .ok (exactSum left right)
      else .error (.fault .overflow) := by
  unfold add
  dsimp only
  congr 1
  rw [← value_exactSum]
  by_cases zero : (exactSum left right).value = 0
  · rw [isZero_iff.2 zero, zero, abs_zero]
    exact (if_pos (ten_zpow_pos _)).symm
  · rw [isZero_eq_false_iff.2 zero]
    by_cases within : (exactSum left right).adjusted ≤ maxExponent
    · rw [if_pos ((small_iff_adjusted_le zero).2 within), if_neg (by simpa using within)]
    · rw [if_neg (mt (small_iff_adjusted_le zero).1 within), if_pos (by simpa using within)]

theorem add_of_fits {left right : Decimal}
    (fits : Fits exactDigits (left.value + right.value) (min left.exponent right.exponent)) :
    left.add right = .ok (exactSum left right) := by
  rw [add_eq, sumTooLong_eq_false_iff.2 fits.short, if_neg Bool.false_ne_true, if_pos fits.small]

theorem add_tooLong_iff {left right : Decimal} :
    left.add right = .error .tooLong ↔
      10 ^ (min left.exponent right.exponent + exactDigits) ≤ |left.value + right.value| := by
  rw [add_eq, ← not_lt, ← sumTooLong_eq_false_iff]
  cases sumTooLong left right with
  | true => exact iff_of_true rfl Bool.noConfusion
  | false =>
      refine iff_of_false ?_ (not_not_intro rfl)
      rw [if_neg Bool.false_ne_true]
      split <;> exact nofun

/-- Everything about a sum is told by the exact one. -/
theorem add_congr {left right first second : Decimal}
    (same : exactSum left right = exactSum first second) : left.add right = first.add second := by
  unfold add
  rw [sumTooLong_eq, sumTooLong_eq, same]

theorem add_swapped (left right : Decimal) : left.add right = right.add left :=
  add_congr (exactSum_comm left right)

theorem add_regrouped (first second third : Decimal) :
    (exactSum first second).add third = first.add (exactSum second third) :=
  add_congr (exactSum_assoc first second third)

theorem value_opposite (number : Decimal) : number.opposite.value = -number.value := by
  unfold value opposite
  cases number.negative <;> simp

theorem exactDifference_denotes (left right : Decimal) :
    (exactSum left right.opposite).Denotes (left.value - right.value)
      (min left.exponent right.exponent) (left.negativeZero && right.opposite.negativeZero) := by
  have denotes := exactSum_denotes left right.opposite
  rw [value_opposite, ← sub_eq_add_neg] at denotes
  exact denotes

theorem sub_of_fits {left right : Decimal}
    (fits : Fits exactDigits (left.value - right.value) (min left.exponent right.exponent)) :
    left.sub right = .ok (exactSum left right.opposite) := by
  rw [sub_eq_add_neg, ← value_opposite] at fits
  exact add_of_fits fits

theorem sub_tooLong_iff {left right : Decimal} :
    left.sub right = .error .tooLong ↔
      10 ^ (min left.exponent right.exponent + exactDigits) ≤ |left.value - right.value| := by
  rw [sub_eq_add_neg, ← value_opposite]
  exact add_tooLong_iff

/-! ## Products and negation -/

theorem value_exactProduct (left right : Decimal) :
    (exactProduct left right).value = left.value * right.value := by
  have scaled := ten_zpow_add left.exponent right.exponent
  unfold value exactProduct
  dsimp only
  rw [scaled]
  cases left.negative <;> cases right.negative <;>
    simp only [bne_self_eq_false, Bool.false_eq_true, if_true, if_false, Bool.true_bne,
      Bool.false_bne, Bool.not_false, Nat.cast_mul] <;> ring

theorem exactProduct_denotes (left right : Decimal) :
    (exactProduct left right).Denotes (left.value * right.value) (left.exponent + right.exponent)
      (left.negative != right.negative) :=
  ⟨value_exactProduct left right, rfl, fun _ => rfl⟩

theorem exactProduct_comm (left right : Decimal) :
    exactProduct left right = exactProduct right left := by
  unfold exactProduct
  rw [bne_comm, Nat.mul_comm, Int.add_comm]

theorem exactProduct_assoc (first second third : Decimal) :
    exactProduct (exactProduct first second) third =
      exactProduct first (exactProduct second third) := by
  unfold exactProduct
  dsimp only
  rw [Bool.bne_assoc, Nat.mul_assoc, Int.add_assoc]

theorem digitCount_exactProduct_le_iff {left right : Decimal} :
    digitCount (exactProduct left right).coefficient ≤ exactDigits ↔
      |left.value * right.value| < 10 ^ (left.exponent + right.exponent + exactDigits) := by
  rw [digitCount_coefficient_le_iff (by decide), value_exactProduct,
    (exactProduct_denotes left right).exponent_eq]

theorem mul_of_fits {left right : Decimal}
    (fits : Fits exactDigits (left.value * right.value) (left.exponent + right.exponent)) :
    left.mul right = .ok (exactProduct left right) := by
  have range := fits.toInRange
  rw [← value_exactProduct] at range
  unfold mul
  dsimp only
  rw [if_neg (not_lt.2 (digitCount_exactProduct_le_iff.2 fits.short)), intoRange_of_inRange range]
  rfl

theorem mul_tooLong_iff {left right : Decimal} :
    left.mul right = .error .tooLong ↔
      10 ^ (left.exponent + right.exponent + exactDigits) ≤ |left.value * right.value| := by
  rw [← not_lt, ← digitCount_exactProduct_le_iff, not_le]
  unfold mul
  dsimp only
  split
  case isTrue long => exact iff_of_true rfl long
  case isFalse short =>
    refine iff_of_false ?_ short
    cases intoRange exactDigits (exactProduct left right) <;> exact nofun

theorem mul_swapped (left right : Decimal) : left.mul right = right.mul left := by
  rw [mul, exactProduct_comm, mul]

theorem mul_regrouped (first second third : Decimal) :
    (exactProduct first second).mul third = first.mul (exactProduct second third) := by
  rw [mul, exactProduct_assoc, mul]

theorem neg_denotes (number : Decimal) :
    number.neg.Denotes (-number.value) number.exponent false := by
  by_cases zero : number.value = 0
  · have none : number.neg.value = 0 := by
      rw [value_eq_zero] at zero ⊢
      exact zero
    refine ⟨by rw [none, zero, neg_zero], rfl, fun _ => ?_⟩
    rw [neg, isZero_iff.2 zero, Bool.not_true, Bool.and_false]
  · have flipped : number.neg = number.opposite := by
      rw [neg, isZero_eq_false_iff.2 zero, Bool.not_false, Bool.and_true, opposite]
    exact ⟨flipped ▸ value_opposite number, rfl, fun none => absurd (neg_eq_zero.1 none) zero⟩

end Decimal

namespace Heap

/-! ## Operators -/

/-- The operator gives the number with this value and this exponent, and with this sign if it is a
zero. -/
def Gives (heap : Heap) (operator : BinaryOperator) (left right : Decimal) (value : ℚ)
    (exponent : Int) (negative : Bool) : Prop :=
  ∃ number, heap.binary operator (.number left) (.number right) = .ok (.number number) ∧
    number.Denotes value exponent negative

/-- The program is refused for operands that the operator does not take, for a cause of this
category. -/
def Refuses (heap : Heap) (operator : BinaryOperator) (left right : Value) (category : Category) :
    Prop :=
  ∃ cause, heap.binary operator left right = .error (.cause cause) ∧ cause.category = category

/-- Division and remainder refuse a zero as divisor, of any sign and scale, and no other number. -/
theorem refuses_zeroDivision_iff (heap : Heap) {operator : BinaryOperator}
    (divides : operator = .div ∨ operator = .rem) (left right : Decimal) :
    heap.Refuses operator (.number left) (.number right) .zeroDivision ↔ right.value = 0 := by
  have result (computed : Except Decimal.Fault Decimal) (cause : Cause) :
      numberResult computed ≠ .error (.cause cause) := by
    cases computed <;> exact nofun
  constructor
  · rintro ⟨cause, refused, -⟩
    by_contra ne
    rcases divides with rfl | rfl <;> rw [binary, Decimal.isZero_eq_false_iff.2 ne] at refused <;>
      exact result _ _ refused
  · intro zero
    refine ⟨.divisionByZero, ?_, rfl⟩
    rcases divides with rfl | rfl <;> rw [binary, Decimal.isZero_iff.2 zero] <;> rfl

theorem exactResult_memory_iff {result : Except Decimal.Refusal Decimal} :
    exactResult result = .error (.limit .memory) ↔ result = .error .tooLong := by
  rcases result with (_ | _) | _ <;> simp [exactResult]

theorem binary_add_of_fits (heap : Heap) {left right : Decimal}
    (fits : Decimal.Fits Decimal.exactDigits (left.value + right.value)
      (min left.exponent right.exponent)) :
    heap.binary .add (.number left) (.number right) = .ok (.number (left.exactSum right)) := by
  rw [binary, Decimal.add_of_fits fits]
  rfl

theorem binary_mul_of_fits (heap : Heap) {left right : Decimal}
    (fits : Decimal.Fits Decimal.exactDigits (left.value * right.value)
      (left.exponent + right.exponent)) :
    heap.binary .mul (.number left) (.number right) = .ok (.number (left.exactProduct right)) := by
  rw [binary, Decimal.mul_of_fits fits]
  rfl

open Decimal

/-- Sums, differences, products and negations that are not out of range and have at most `exactDigits`
digits are exact, and so is their exponent. A product that is zero has the sign that the rule of signs
gives, a sum that is zero is negative only if both terms are negative zeros, and the negation of a zero
is the positive zero. Addition and multiplication commute and associate, scale and sign of zeros
included, and multiplication distributes over addition. The sums, differences and products that are
refused for their length are exactly those with more digits. -/
theorem arithmetic_exact (heap : Heap) (first second third : Decimal) :
    (Fits exactDigits (first.value + second.value) (min first.exponent second.exponent) →
      heap.Gives .add first second (first.value + second.value)
        (min first.exponent second.exponent) (first.negativeZero && second.negativeZero)) ∧
      (Fits exactDigits (first.value - second.value) (min first.exponent second.exponent) →
        heap.Gives .sub first second (first.value - second.value)
          (min first.exponent second.exponent)
          (first.negativeZero && second.opposite.negativeZero)) ∧
      (Fits exactDigits (first.value * second.value) (first.exponent + second.exponent) →
        heap.Gives .mul first second (first.value * second.value)
          (first.exponent + second.exponent) (first.negative != second.negative)) ∧
      (∃ number, UnaryOperator.negate.apply (.number first) = .ok (.number number) ∧
        number.Denotes (-first.value) first.exponent false) ∧
      heap.binary .add (.number first) (.number second) =
        heap.binary .add (.number second) (.number first) ∧
      heap.binary .mul (.number first) (.number second) =
        heap.binary .mul (.number second) (.number first) ∧
      (Fits exactDigits (first.value + second.value) (min first.exponent second.exponent) →
        Fits exactDigits (second.value + third.value) (min second.exponent third.exponent) →
        ∃ left right, heap.binary .add (.number first) (.number second) = .ok left ∧
          heap.binary .add (.number second) (.number third) = .ok right ∧
          heap.binary .add left (.number third) = heap.binary .add (.number first) right) ∧
      (Fits exactDigits (first.value * second.value) (first.exponent + second.exponent) →
        Fits exactDigits (second.value * third.value) (second.exponent + third.exponent) →
        ∃ left right, heap.binary .mul (.number first) (.number second) = .ok left ∧
          heap.binary .mul (.number second) (.number third) = .ok right ∧
          heap.binary .mul left (.number third) = heap.binary .mul (.number first) right) ∧
      (Fits exactDigits (second.value + third.value) (min second.exponent third.exponent) →
        Fits exactDigits (first.value * second.value) (first.exponent + second.exponent) →
        Fits exactDigits (first.value * third.value) (first.exponent + third.exponent) →
        Fits exactDigits (first.value * (second.value + third.value))
          (first.exponent + min second.exponent third.exponent) →
        ∃ sum left right, ∃ whole parts : Decimal,
          heap.binary .add (.number second) (.number third) = .ok sum ∧
          heap.binary .mul (.number first) sum = .ok (.number whole) ∧
          heap.binary .mul (.number first) (.number second) = .ok left ∧
          heap.binary .mul (.number first) (.number third) = .ok right ∧
          heap.binary .add left right = .ok (.number parts) ∧
          whole.value = first.value * (second.value + third.value) ∧
          parts.value = whole.value) ∧
      (heap.binary .add (.number first) (.number second) = .error (.limit .memory) ↔
        10 ^ (min first.exponent second.exponent + exactDigits) ≤ |first.value + second.value|) ∧
      (heap.binary .sub (.number first) (.number second) = .error (.limit .memory) ↔
        10 ^ (min first.exponent second.exponent + exactDigits) ≤ |first.value - second.value|) ∧
      (heap.binary .mul (.number first) (.number second) = .error (.limit .memory) ↔
        10 ^ (first.exponent + second.exponent + exactDigits) ≤ |first.value * second.value|) := by
  refine ⟨?_, ?_, ?_, ?_, ?_, ?_, ?_, ?_, ?_, ?_, ?_, ?_⟩
  · intro fits
    exact ⟨_, heap.binary_add_of_fits fits, exactSum_denotes first second⟩
  · intro fits
    refine ⟨_, ?_, exactDifference_denotes first second⟩
    rw [binary, sub_of_fits fits]
    rfl
  · intro fits
    exact ⟨_, heap.binary_mul_of_fits fits, exactProduct_denotes first second⟩
  · exact ⟨_, rfl, neg_denotes first⟩
  · exact congrArg exactResult (Decimal.add_swapped first second)
  · exact congrArg exactResult (Decimal.mul_swapped first second)
  · intro left right
    refine ⟨_, _, heap.binary_add_of_fits left, heap.binary_add_of_fits right, ?_⟩
    exact congrArg exactResult (Decimal.add_regrouped first second third)
  · intro left right
    refine ⟨_, _, heap.binary_mul_of_fits left, heap.binary_mul_of_fits right, ?_⟩
    exact congrArg exactResult (Decimal.mul_regrouped first second third)
  · intro terms left right fits
    have product : Fits exactDigits (first.value * (exactSum second third).value)
        (first.exponent + (exactSum second third).exponent) := by
      rw [value_exactSum, (exactSum_denotes second third).exponent_eq]
      exact fits
    have sum : Fits exactDigits ((first.exactProduct second).value + (first.exactProduct third).value)
        (min (first.exactProduct second).exponent (first.exactProduct third).exponent) := by
      rw [value_exactProduct, value_exactProduct, ← mul_add,
        (exactProduct_denotes first second).exponent_eq,
        (exactProduct_denotes first third).exponent_eq, min_add_add_left]
      exact fits
    refine ⟨_, _, _, _, _, heap.binary_add_of_fits terms, heap.binary_mul_of_fits product,
      heap.binary_mul_of_fits left, heap.binary_mul_of_fits right, heap.binary_add_of_fits sum,
      ?_, ?_⟩
    · rw [value_exactProduct, value_exactSum]
    · rw [value_exactSum, value_exactProduct, value_exactProduct, value_exactProduct,
        value_exactSum, mul_add]
  · exact exactResult_memory_iff.trans add_tooLong_iff
  · exact exactResult_memory_iff.trans sub_tooLong_iff
  · exact exactResult_memory_iff.trans mul_tooLong_iff

/-- One tenth, two tenths and minus thirty hundredths, whose sum is a zero with two places. -/
theorem arithmetic_exact_tenths :
    let tenth : Decimal := ⟨false, 1, -1⟩
    let fifth : Decimal := ⟨false, 2, -1⟩
    let rest : Decimal := ⟨true, 30, -2⟩
    empty.Gives .add tenth fifth (3 / 10) (-1) false ∧
      empty.Gives .sub tenth fifth (-1 / 10) (-1) false ∧
      empty.Gives .mul tenth fifth (2 / 100) (-2) false ∧
      (∃ left right, empty.binary .add (.number tenth) (.number fifth) = .ok left ∧
        empty.binary .add (.number fifth) (.number rest) = .ok right ∧
        empty.binary .add left (.number rest) = empty.binary .add (.number tenth) right) ∧
      (∃ left right, empty.binary .mul (.number tenth) (.number fifth) = .ok left ∧
        empty.binary .mul (.number fifth) (.number rest) = .ok right ∧
        empty.binary .mul left (.number rest) = empty.binary .mul (.number tenth) right) ∧
      ∃ sum, ∃ whole : Decimal,
        empty.binary .add (.number fifth) (.number rest) = .ok sum ∧
        empty.binary .mul (.number tenth) sum = .ok (.number whole) ∧ whole.value = -1 / 100 := by
  intro tenth fifth rest
  have tenthValue : tenth.value = 1 / 10 := by norm_num [tenth, value]
  have fifthValue : fifth.value = 2 / 10 := by norm_num [fifth, value]
  have restValue : rest.value = -3 / 10 := by norm_num [rest, value]
  obtain ⟨added, subtracted, multiplied, -, -, -, sums, products, distributed, -, -, -⟩ :=
    arithmetic_exact empty tenth fifth rest
  rw [tenthValue, fifthValue] at added subtracted multiplied sums products distributed
  rw [restValue] at sums products distributed
  have fits {value : ℚ} {exponent : Int} (small : |value| < 1) (least : -3 ≤ exponent)
      (most : exponent ≤ 0) : Fits exactDigits value exponent := by
    refine ⟨⟨lt_limit (by linarith), ?_, ?_⟩, small.trans_le ?_⟩
    · exact le_trans (by decide) least
    · exact most.trans (by decide)
    · exact (zpow_zero 10).symm.trans_le (ten_zpow_le.2 (by unfold exactDigits; omega))
  have product : Fits exactDigits (1 / 10 * (2 / 10)) (tenth.exponent + fifth.exponent) :=
    fits (by norm_num) (by decide) (by decide)
  have next : Fits exactDigits (2 / 10 * (-3 / 10)) (fifth.exponent + rest.exponent) :=
    fits (by norm_num [abs_lt]) (by decide) (by decide)
  have outer : Fits exactDigits (1 / 10 * (-3 / 10)) (tenth.exponent + rest.exponent) :=
    fits (by norm_num [abs_lt]) (by decide) (by decide)
  have first : Fits exactDigits (1 / 10 + 2 / 10) (min tenth.exponent fifth.exponent) :=
    fits (by norm_num [abs_lt]) (by decide) (by decide)
  have terms : Fits exactDigits (2 / 10 + -3 / 10) (min fifth.exponent rest.exponent) :=
    fits (by norm_num [abs_lt]) (by decide) (by decide)
  obtain ⟨sum, _, _, whole, _, formed, given, -, -, -, result, -⟩ :=
    distributed terms product outer (fits (by norm_num [abs_lt]) (by decide) (by decide))
  refine ⟨?_, ?_, ?_, sums first terms, products product next, sum, whole, formed, given,
    by norm_num [result]⟩
  · have sum := added first
    rw [show (1 / 10 + 2 / 10 : ℚ) = 3 / 10 by norm_num] at sum
    exact sum
  · have difference := subtracted (fits (by norm_num [abs_lt]) (by decide) (by decide))
    rw [show (1 / 10 - 2 / 10 : ℚ) = -1 / 10 by norm_num] at difference
    exact difference
  · have result := multiplied product
    rw [show (1 / 10 * (2 / 10) : ℚ) = 2 / 100 by norm_num] at result
    exact result

/-- One with the largest exponent, and one: the sum is in range, but it has a digit more than a number can
have. -/
theorem sum_of_largest_and_one :
    let largest : Decimal := ⟨false, 1, 999999999999999999⟩
    largest.IsFinite ∧ IsFinite .one ∧
      InRange exactDigits (largest.value + value .one) (min largest.exponent one.exponent) ∧
      ¬ ∃ number, empty.binary .add (.number largest) (.number .one) = .ok number := by
  intro largest
  have sum : empty.binary .add (.number largest) (.number .one) = .error (.limit .memory) := by
    decide +kernel
  refine ⟨isFinite_iff.2 (by decide +kernel), isFinite_iff.2 (by decide +kernel), ⟨?_, ?_, ?_⟩, ?_⟩
  · have oneValue : value .one = 1 := by norm_num [value, one, ofNat]
    have largestValue : largest.value = 10 ^ maxExponent := by simp [value, largest, maxExponent]
    have least : (1 : ℚ) ≤ 10 ^ maxExponent :=
      (zpow_zero 10).symm.trans_le (ten_zpow_le.2 (by decide))
    rw [oneValue, largestValue, limit, ten_zpow_add, zpow_one, abs_of_pos (by linarith)]
    linarith
  · decide +kernel
  · decide +kernel
  · simp [sum]

end Heap

end Onepass
