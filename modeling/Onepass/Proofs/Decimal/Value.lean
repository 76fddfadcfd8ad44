import Mathlib.Algebra.Order.Field.Power
import Mathlib.Algebra.Order.Field.Rat
import Mathlib.Algebra.Order.Ring.Cast
import Mathlib.Data.Nat.Cast.Order.Field
import Mathlib.Tactic.Linarith
import Mathlib.Tactic.NormNum
import Mathlib.Tactic.Positivity
import Mathlib.Tactic.Ring
import Onepass.Proofs.Decimal.Grid

/-! # The rational number of a decimal

What a decimal denotes is the rational number `± coefficient · 10 ^ exponent`. The number of digits of a
coefficient, the place of the leading digit and the order of decimals are read off their digits; here
they are said of the rational numbers. Neither sign nor scale of a zero plays a role in the order.
-/

set_option autoImplicit false

namespace Onepass.Decimal

theorem ten_zpow_pos (exponent : Int) : (0 : ℚ) < 10 ^ exponent :=
  zpow_pos (by norm_num) exponent

theorem ten_zpow_le {lower upper : Int} : (10 : ℚ) ^ lower ≤ 10 ^ upper ↔ lower ≤ upper :=
  zpow_le_zpow_iff_right₀ (by norm_num)

theorem ten_zpow_lt {lower upper : Int} : (10 : ℚ) ^ lower < 10 ^ upper ↔ lower < upper :=
  zpow_lt_zpow_iff_right₀ (by norm_num)

theorem ten_zpow_add (first second : Int) :
    (10 : ℚ) ^ (first + second) = 10 ^ first * 10 ^ second :=
  zpow_add₀ (by norm_num) first second

/-- A power of ten with an exponent that is no negative number is a natural number. -/
theorem ten_pow_toNat {exponent : Int} (le : 0 ≤ exponent) :
    ((10 ^ exponent.toNat : Nat) : ℚ) = 10 ^ exponent := by
  rw [Nat.cast_pow, Nat.cast_ofNat, ← zpow_natCast, Int.toNat_of_nonneg le]

/-! ## Values -/

/-- The rational number that a decimal denotes. -/
def value (number : Decimal) : ℚ :=
  (if number.negative then -(number.coefficient : ℚ) else number.coefficient) * 10 ^ number.exponent

theorem abs_value (number : Decimal) :
    |number.value| = number.coefficient * 10 ^ number.exponent := by
  unfold value
  rw [abs_mul, abs_of_pos (ten_zpow_pos _)]
  split
  · rw [abs_neg, Nat.abs_cast]
  · rw [Nat.abs_cast]

theorem value_eq_zero {number : Decimal} : number.value = 0 ↔ number.coefficient = 0 := by
  rw [← abs_eq_zero, abs_value, mul_eq_zero, Nat.cast_eq_zero]
  exact or_iff_left (ten_zpow_pos _).ne'

theorem isZero_iff {number : Decimal} : number.isZero = true ↔ number.value = 0 := by
  rw [value_eq_zero, isZero, beq_iff_eq]

theorem isZero_eq_false_iff {number : Decimal} : number.isZero = false ↔ number.value ≠ 0 := by
  rw [ne_eq, ← isZero_iff, Bool.not_eq_true]

theorem value_of_positive {number : Decimal} (positive : number.negative = false) :
    number.value = |number.value| := by
  rw [abs_value, value, positive, if_neg Bool.false_ne_true]

theorem value_of_negative {number : Decimal} (negative : number.negative = true) :
    number.value = -|number.value| := by
  rw [abs_value, value, negative, if_pos rfl, neg_mul]

theorem value_pos {number : Decimal} (ne : number.value ≠ 0) (positive : number.negative = false) :
    0 < number.value := by
  rw [value_of_positive positive]
  exact abs_pos.2 ne

theorem value_neg {number : Decimal} (ne : number.value ≠ 0) (negative : number.negative = true) :
    number.value < 0 := by
  rw [value_of_negative negative]
  exact neg_neg_of_pos (abs_pos.2 ne)

/-- On a grid that is fine enough, a number is the power of ten taken so many times. -/
theorem value_eq_signedAt (number : Decimal) {exponent : Int} (le : exponent ≤ number.exponent) :
    number.value = number.signedAt exponent * 10 ^ exponent := by
  have scaled : (10 : ℚ) ^ number.exponent =
      ((10 ^ (number.exponent - exponent).toNat : Nat) : ℚ) * 10 ^ exponent := by
    rw [ten_pow_toNat (by omega), ← ten_zpow_add, sub_add_cancel]
  unfold value signedAt coefficientAt
  rw [shift_eq, scaled, ← mul_assoc]
  split
  · push_cast
    ring
  · push_cast
    ring

theorem abs_value_eq_coefficientAt (number : Decimal) {exponent : Int}
    (le : exponent ≤ number.exponent) :
    |number.value| = number.coefficientAt exponent * 10 ^ exponent := by
  rw [value_eq_signedAt number le, abs_mul, abs_of_pos (ten_zpow_pos _)]
  unfold signedAt
  split
  · push_cast
    rw [abs_neg, Nat.abs_cast]
  · push_cast
    rw [Nat.abs_cast]

/-! ## Digits -/

/-- A power of ten that is at most a power of two keeps so if both exponents grow in that ratio. -/
theorem ten_pow_le_two_pow {tens twos estimate bits : Nat} (le : 10 ^ tens ≤ 2 ^ twos)
    (positive : tens ≠ 0) (ratio : estimate * twos ≤ bits * tens) : 10 ^ estimate ≤ 2 ^ bits := by
  have powers : (10 ^ estimate) ^ tens ≤ (2 ^ bits) ^ tens :=
    calc (10 ^ estimate) ^ tens = (10 ^ tens) ^ estimate := Nat.pow_right_comm ..
      _ ≤ (2 ^ twos) ^ estimate := Nat.pow_le_pow_left le _
      _ = 2 ^ (estimate * twos) := by rw [← Nat.pow_mul, Nat.mul_comm]
      _ ≤ 2 ^ (bits * tens) := Nat.pow_le_pow_right (by decide) ratio
      _ = (2 ^ bits) ^ tens := Nat.pow_mul ..
  exact (Nat.pow_le_pow_iff_left positive).1 powers

/-- The estimate from the binary length is less than the number of digits. -/
theorem pow_estimate_le {number : Nat} (ne : number ≠ 0) :
    10 ^ (Nat.log2 number * 1233 / 4096) ≤ number :=
  calc 10 ^ (Nat.log2 number * 1233 / 4096)
      ≤ 2 ^ Nat.log2 number :=
        @ten_pow_le_two_pow 1233 4096 _ _ (by decide +kernel) (by decide) (Nat.div_mul_le_self ..)
    _ ≤ number := Nat.log2_self_le ne

theorem pow_digitCountFrom_le {number count : Nat} (positive : 0 < count)
    (le : 10 ^ (count - 1) ≤ number) :
    0 < digitCountFrom number count ∧ 10 ^ (digitCountFrom number count - 1) ≤ number := by
  fun_induction digitCountFrom number count with
  | case1 count _ => exact ⟨positive, le⟩
  | case2 count large ih =>
      rw [Nat.not_lt] at large
      exact ih (Nat.succ_pos _) large

theorem digitCount_zero : digitCount 0 = 1 := by
  decide +kernel

theorem digitCount_pos (number : Nat) : 0 < digitCount number := by
  by_cases zero : number = 0
  · rw [zero, digitCount_zero]
    exact Nat.one_pos
  · exact (pow_digitCountFrom_le (Nat.succ_pos _) (pow_estimate_le zero)).1

theorem pow_digitCount_le {number : Nat} (ne : number ≠ 0) : 10 ^ (digitCount number - 1) ≤ number :=
  (pow_digitCountFrom_le (Nat.succ_pos _) (pow_estimate_le ne)).2

/-- Having at most so many digits is being less than the power of ten. -/
theorem digitCount_le_iff {number digits : Nat} (positive : 0 < digits) :
    digitCount number ≤ digits ↔ number < 10 ^ digits := by
  constructor
  · intro le
    exact (lt_pow_digitCount number).trans_le (Nat.pow_le_pow_right (by decide) le)
  · intro small
    by_cases zero : number = 0
    · rw [zero, digitCount_zero]
      exact positive
    · have := (Nat.pow_lt_pow_iff_right (by decide)).1 ((pow_digitCount_le zero).trans_lt small)
      omega

theorem digitCount_eq_iff {number digits : Nat} (ne : number ≠ 0) :
    digitCount number = digits + 1 ↔ 10 ^ digits ≤ number ∧ number < 10 ^ (digits + 1) := by
  constructor
  · intro eq
    have lower := pow_digitCount_le ne
    have upper := lt_pow_digitCount number
    rw [eq] at lower upper
    exact ⟨lower, upper⟩
  · rintro ⟨lower, upper⟩
    have most := (digitCount_le_iff (Nat.succ_pos digits)).2 upper
    have least :=
      (Nat.pow_lt_pow_iff_right (by decide)).1 (lower.trans_lt (lt_pow_digitCount number))
    omega

theorem digitCount_mono {smaller larger : Nat} (le : smaller ≤ larger) :
    digitCount smaller ≤ digitCount larger :=
  (digitCount_le_iff (digitCount_pos larger)).2 (le.trans_lt (lt_pow_digitCount larger))

/-- A carry makes a sum longer than both terms by one digit at most. -/
theorem digitCount_natAbs_add_le (first second : Int) :
    digitCount (first + second).natAbs ≤
      max (digitCount first.natAbs) (digitCount second.natAbs) + 1 := by
  rw [digitCount_le_iff (Nat.succ_pos _), Nat.pow_succ]
  have firstSmall := (lt_pow_digitCount first.natAbs).trans_le
    (Nat.pow_le_pow_right (by decide) (le_max_left _ (digitCount second.natAbs)))
  have secondSmall := (lt_pow_digitCount second.natAbs).trans_le
    (Nat.pow_le_pow_right (by decide) (le_max_right (digitCount first.natAbs) _))
  omega

/-- Borrowing makes a number shorter by one digit at most if the other one is shorter by two. -/
theorem digitCount_natAbs_le_add {first second : Int}
    (shorter : digitCount second.natAbs + 1 < digitCount first.natAbs) :
    digitCount first.natAbs ≤ digitCount (first + second).natAbs + 1 := by
  obtain ⟨digits, count⟩ := Nat.exists_eq_add_of_lt shorter
  have ne : first.natAbs ≠ 0 := by
    intro zero
    have := digitCount_pos second.natAbs
    rw [zero, digitCount_zero] at shorter
    omega
  have large := pow_digitCount_le ne
  have small := (lt_pow_digitCount second.natAbs).trans_le
    (Nat.pow_le_pow_right (by decide : 0 < 10) (by omega : _ ≤ digitCount second.natAbs + digits))
  rw [count, show digitCount second.natAbs + 1 + digits + 1 - 1 =
    digitCount second.natAbs + digits + 1 by omega, Nat.pow_succ] at large
  have least : 10 ^ (digitCount second.natAbs + digits) ≤ (first + second).natAbs := by omega
  have := (Nat.pow_lt_pow_iff_right (by decide)).1
    (least.trans_lt (lt_pow_digitCount (first + second).natAbs))
  omega

/-- Zeros behind a number are digits of it. -/
theorem digitCount_mul_pow {number : Nat} (ne : number ≠ 0) (zeros : Nat) :
    digitCount (number * 10 ^ zeros) = digitCount number + zeros := by
  have power : 0 < 10 ^ zeros := Nat.pow_pos (by decide)
  obtain ⟨digits, count⟩ := Nat.exists_eq_succ_of_ne_zero (digitCount_pos number).ne'
  obtain ⟨lower, upper⟩ := (digitCount_eq_iff ne).1 count
  rw [count, Nat.succ_add, digitCount_eq_iff (Nat.mul_ne_zero ne power.ne'), Nat.pow_add,
    Nat.add_right_comm, Nat.pow_add]
  exact ⟨Nat.mul_le_mul_right _ lower, Nat.mul_lt_mul_of_pos_right upper power⟩

/-- A decimal has at most so many digits if its value is less than that power of ten, seen from its
exponent. -/
theorem digitCount_coefficient_le_iff {number : Decimal} {digits : Nat} (positive : 0 < digits) :
    digitCount number.coefficient ≤ digits ↔ |number.value| < 10 ^ (number.exponent + digits) := by
  rw [digitCount_le_iff positive, abs_value, add_comm, ten_zpow_add, zpow_natCast,
    mul_lt_mul_iff_of_pos_right (ten_zpow_pos _)]
  exact_mod_cast Iff.rfl

theorem digitsAt_eq (number : Decimal) (exponent : Int) :
    number.digitsAt exponent = digitCount (number.coefficientAt exponent) := by
  unfold digitsAt coefficientAt
  rw [shift_eq]
  split
  case _ zero =>
    rw [value_eq_zero.1 (isZero_iff.1 zero), Nat.zero_mul, digitCount_zero]
  case _ ne =>
    exact (digitCount_mul_pow (fun zero => ne (isZero_iff.2 (value_eq_zero.2 zero))) _).symm

/-! ## The leading digit -/

theorem zpow_adjusted_le {number : Decimal} (ne : number.value ≠ 0) :
    (10 : ℚ) ^ number.adjusted ≤ |number.value| := by
  have least := pow_digitCount_le (fun zero => ne (value_eq_zero.2 zero))
  have positive := digitCount_pos number.coefficient
  have place : number.adjusted =
      ((digitCount number.coefficient - 1 : Nat) : Int) + number.exponent := by
    unfold adjusted
    omega
  rw [abs_value, place, ten_zpow_add, zpow_natCast]
  exact mul_le_mul_of_nonneg_right (by exact_mod_cast least) (ten_zpow_pos _).le

theorem abs_value_lt_zpow_adjusted (number : Decimal) :
    |number.value| < (10 : ℚ) ^ (number.adjusted + 1) := by
  have place : number.adjusted + 1 = (digitCount number.coefficient : Int) + number.exponent := by
    unfold adjusted
    omega
  rw [abs_value, place, ten_zpow_add, zpow_natCast]
  exact mul_lt_mul_of_pos_right (by exact_mod_cast lt_pow_digitCount _) (ten_zpow_pos _)

/-- The leading digit is not beyond a place if and only if the number is less than the next power of
ten. -/
theorem adjusted_le_iff {number : Decimal} (ne : number.value ≠ 0) {place : Int} :
    number.adjusted ≤ place ↔ |number.value| < 10 ^ (place + 1) := by
  constructor
  · intro le
    exact (abs_value_lt_zpow_adjusted number).trans_le (ten_zpow_le.2 (by omega))
  · intro small
    have := ten_zpow_lt.1 ((zpow_adjusted_le ne).trans_lt small)
    omega

theorem exponent_le_adjusted (number : Decimal) : number.exponent ≤ number.adjusted := by
  have := digitCount_pos number.coefficient
  unfold adjusted
  omega

/-! ## Integers -/

/-- The power of ten that a fraction has to be divisible by cancels its exponent. -/
theorem powerOfTen_mul_zpow {exponent : Int} (fractional : exponent < 0) :
    (powerOfTen (-exponent).toNat : ℚ) * 10 ^ exponent = 1 := by
  rw [powerOfTen, Nat.pow_eq, ten_pow_toNat (by omega), ← ten_zpow_add, neg_add_cancel, zpow_zero]

theorem isIntegral_of_fractional {number : Decimal} (fractional : number.exponent < 0)
    (ne : number.value ≠ 0) :
    number.isIntegral = true ↔
      0 ≤ number.adjusted ∧ powerOfTen (-number.exponent).toNat ∣ number.coefficient := by
  unfold isIntegral
  rw [isZero_eq_false_iff.2 ne, decide_eq_false (not_le.2 fractional), Bool.or_false,
    if_neg Bool.false_ne_true]
  split
  case isTrue small => exact iff_of_false Bool.false_ne_true fun both => absurd both.1 (not_le.2 small)
  case isFalse large =>
    rw [beq_iff_eq, ← Nat.dvd_iff_mod_eq_zero]
    exact (and_iff_right (not_lt.1 large)).symm

theorem truncated_eq {number : Decimal} {magnitude : Nat} (denotes : |number.value| = magnitude)
    (cut : (if 0 ≤ number.exponent then shift number.coefficient number.exponent.toNat
      else if number.adjusted < 0 then 0
      else number.coefficient / powerOfTen (-number.exponent).toNat) = magnitude) :
    number.value = number.truncated := by
  unfold truncated
  rw [cut]
  cases sign : number.negative with
  | false => rw [value_of_positive sign, denotes, if_neg Bool.false_ne_true, Int.cast_natCast]
  | true => rw [value_of_negative sign, denotes, if_pos rfl, Int.cast_neg, Int.cast_natCast]

/-- A number without fractional part is the integer that is left when it is cut off. -/
theorem value_eq_truncated {number : Decimal} (integral : number.isIntegral = true) :
    number.value = number.truncated := by
  by_cases whole : 0 ≤ number.exponent
  · refine truncated_eq ?_ (by rw [if_pos whole, shift_eq])
    rw [abs_value, Nat.cast_mul, ten_pow_toNat whole]
  · rw [not_le] at whole
    by_cases zero : number.value = 0
    · refine truncated_eq (by rw [zero, abs_zero, Nat.cast_zero]) ?_
      rw [if_neg (not_le.2 whole), value_eq_zero.1 zero, Nat.zero_div, ite_self]
    · obtain ⟨large, divides⟩ := (isIntegral_of_fractional whole zero).1 integral
      refine truncated_eq ?_ (by rw [if_neg (not_le.2 whole), if_neg (not_lt.2 large)])
      rw [abs_value, ← mul_one ((number.coefficient / _ : Nat) : ℚ), ← powerOfTen_mul_zpow whole,
        ← mul_assoc, ← Nat.cast_mul, Nat.div_mul_cancel divides]

/-- A decimal has no fractional part if and only if it denotes an integer. -/
theorem isIntegral_iff {number : Decimal} :
    number.isIntegral = true ↔ ∃ integer : Int, number.value = integer := by
  refine ⟨fun integral => ⟨_, value_eq_truncated integral⟩, fun ⟨integer, denotes⟩ => ?_⟩
  by_cases whole : 0 ≤ number.exponent
  · rw [isIntegral, decide_eq_true whole, Bool.true_or, if_pos rfl]
  · rw [not_le] at whole
    by_cases zero : number.value = 0
    · rw [isIntegral, isZero_iff.2 zero, Bool.or_true, if_pos rfl]
    · have magnitude : |number.value| = integer.natAbs := by
        rw [denotes, Nat.cast_natAbs, Int.cast_abs]
      refine (isIntegral_of_fractional whole zero).2 ⟨?_, integer.natAbs, ?_⟩
      · by_contra small
        have least : (1 : ℚ) ≤ |number.value| := by
          have ne : integer.natAbs ≠ 0 := by
            intro none
            rw [none, Nat.cast_zero] at magnitude
            exact zero (abs_eq_zero.1 magnitude)
          rw [magnitude]
          exact_mod_cast Nat.one_le_iff_ne_zero.2 ne
        have below := (@adjusted_le_iff number zero (-1)).1 (by omega)
        rw [neg_add_cancel, zpow_zero] at below
        exact absurd below (not_lt.2 least)
      · have scaled : (number.coefficient : ℚ) = powerOfTen (-number.exponent).toNat * integer.natAbs := by
          rw [← magnitude, abs_value, mul_left_comm, powerOfTen_mul_zpow whole, mul_one]
        exact_mod_cast scaled
/-! ## Order -/

/-- Scaling by a power of ten changes no order. -/
theorem compare_scaled (left right : Nat) (exponent : Int) :
    compare left right = compare ((left : ℚ) * 10 ^ exponent) (right * 10 ^ exponent) := by
  rw [← cmp_eq_compare, ← cmp_eq_compare, cmp_mul_pos_right (ten_zpow_pos _)]
  exact (Nat.strictMono_cast.cmp_map_eq left right).symm

theorem compareMagnitude_eq {left right : Decimal} (leftNe : left.value ≠ 0)
    (rightNe : right.value ≠ 0) :
    compareMagnitude left right = compare |left.value| |right.value| := by
  unfold compareMagnitude
  rw [isZero_eq_false_iff.2 leftNe, isZero_eq_false_iff.2 rightNe, Bool.false_or, Bool.false_or]
  split
  case _ same =>
    rw [abs_value, abs_value, ← beq_iff_eq.1 same]
    exact compare_scaled ..
  case _ =>
    split
    case _ =>
      rw [abs_value_eq_coefficientAt left (min_le_left left.exponent right.exponent),
        abs_value_eq_coefficientAt right (min_le_right left.exponent right.exponent)]
      exact compare_scaled ..
    -- The places of the leading digits differ, so that a power of ten lies between the numbers.
    case _ places =>
      cases decided : compare left.adjusted right.adjusted with
      | eq => exact absurd decided places
      | lt =>
          have before := compare_lt_iff_lt.1 decided
          refine (compare_lt_iff_lt.2 ?_).symm
          exact (abs_value_lt_zpow_adjusted left).trans_le
            ((ten_zpow_le.2 (by omega)).trans (zpow_adjusted_le rightNe))
      | gt =>
          have after := compare_gt_iff_gt.1 decided
          refine (compare_gt_iff_gt.2 ?_).symm
          exact (abs_value_lt_zpow_adjusted right).trans_le
            ((ten_zpow_le.2 (by omega)).trans (zpow_adjusted_le leftNe))

/-- The order of decimals is that of the rational numbers, whatever their exponents. -/
theorem order_eq_compare (left right : Decimal) :
    left.order right = compare left.value right.value := by
  unfold order
  by_cases leftZero : left.value = 0 <;> by_cases rightZero : right.value = 0
  · rw [isZero_iff.2 leftZero, isZero_iff.2 rightZero, leftZero, rightZero]
    exact (compare_eq_iff_eq.2 rfl).symm
  · rw [isZero_iff.2 leftZero, isZero_eq_false_iff.2 rightZero, leftZero]
    cases sign : right.negative with
    | false => exact (compare_lt_iff_lt.2 (value_pos rightZero sign)).symm
    | true => exact (compare_gt_iff_gt.2 (value_neg rightZero sign)).symm
  · rw [isZero_eq_false_iff.2 leftZero, isZero_iff.2 rightZero, rightZero]
    cases sign : left.negative with
    | false => exact (compare_gt_iff_gt.2 (value_pos leftZero sign)).symm
    | true => exact (compare_lt_iff_lt.2 (value_neg leftZero sign)).symm
  · rw [isZero_eq_false_iff.2 leftZero, isZero_eq_false_iff.2 rightZero]
    cases leftSign : left.negative <;> cases rightSign : right.negative
    · rw [value_of_positive leftSign, value_of_positive rightSign]
      exact compareMagnitude_eq leftZero rightZero
    · exact (compare_gt_iff_gt.2
        ((value_neg rightZero rightSign).trans (value_pos leftZero leftSign))).symm
    · exact (compare_lt_iff_lt.2
        ((value_neg leftZero leftSign).trans (value_pos rightZero rightSign))).symm
    -- Between negative numbers the larger absolute value is the smaller number.
    · have reversed : StrictAnti fun magnitude : ℚ => -magnitude := fun _ _ => neg_lt_neg
      rw [value_of_negative leftSign, value_of_negative rightSign, ← cmp_eq_compare,
        reversed.cmp_map_eq, cmp_eq_compare]
      exact compareMagnitude_eq rightZero leftZero

/-! ## Numbers that exist -/

/-- The first power of ten whose exponent is too large for a leading digit. -/
def limit : ℚ :=
  10 ^ (maxExponent + 1)

theorem lt_limit {value : ℚ} (small : value < 10) : value < limit :=
  small.trans_le ((zpow_one 10).symm.trans_le (ten_zpow_le.2 (by decide)))

/-- A value at an exponent lies in the range of exponents for coefficients of so many digits. For a value
that is not zero the last condition follows from the first. -/
structure InRange (digits : Nat) (value : ℚ) (exponent : Int) : Prop where
  small : |value| < limit
  last_le : lastPlace digits ≤ exponent
  le_max : exponent ≤ maxExponent

/-- A value at an exponent lies in that range, and at most so many digits make its coefficient. -/
structure Fits (digits : Nat) (value : ℚ) (exponent : Int) : Prop extends
    InRange digits value exponent where
  short : |value| < 10 ^ (exponent + digits)

/-- A decimal that exists: no operation gives another one. -/
def IsFinite (number : Decimal) : Prop :=
  Fits exactDigits number.value number.exponent

theorem small_iff_adjusted_le {number : Decimal} (ne : number.value ≠ 0) :
    |number.value| < limit ↔ number.adjusted ≤ maxExponent :=
  (adjusted_le_iff ne).symm

theorem inRange_iff {digits : Nat} {number : Decimal} :
    InRange digits number.value number.exponent ↔
      lastPlace digits ≤ number.exponent ∧ number.exponent ≤ maxExponent ∧
        (number.isZero = true ∨ number.adjusted ≤ maxExponent) := by
  by_cases zero : number.value = 0
  · have small : |number.value| < limit := by
      rw [zero, abs_zero]
      exact ten_zpow_pos _
    exact ⟨fun range => ⟨range.last_le, range.le_max, .inl (isZero_iff.2 zero)⟩,
      fun ⟨last, max, _⟩ => ⟨small, last, max⟩⟩
  · rw [isZero_eq_false_iff.2 zero, ← small_iff_adjusted_le zero]
    exact ⟨fun range => ⟨range.last_le, range.le_max, .inr range.small⟩,
      fun ⟨last, max, small⟩ => ⟨small.resolve_left Bool.false_ne_true, last, max⟩⟩

/-- Whether a decimal exists can be told from its digits. -/
theorem isFinite_iff {number : Decimal} :
    number.IsFinite ↔
      (lastPlace exactDigits ≤ number.exponent ∧ number.exponent ≤ maxExponent ∧
        (number.isZero = true ∨ number.adjusted ≤ maxExponent)) ∧
        digitCount number.coefficient ≤ exactDigits := by
  rw [← inRange_iff, digitCount_coefficient_le_iff (by decide)]
  exact ⟨fun finite => ⟨finite.toInRange, finite.short⟩, fun ⟨range, short⟩ => ⟨range, short⟩⟩

/-- A number in range is left as it is. -/
theorem intoRange_of_inRange {digits : Nat} {number : Decimal}
    (range : InRange digits number.value number.exponent) :
    intoRange digits number = .ok number := by
  obtain ⟨last, max, digits⟩ := inRange_iff.1 range
  unfold intoRange
  dsimp only
  split
  case _ => rw [min_eq_left max, max_eq_right last]
  case _ ne =>
    rw [if_neg (not_lt.2 (digits.resolve_left ne)), if_neg (not_lt.2 last)]

end Onepass.Decimal
