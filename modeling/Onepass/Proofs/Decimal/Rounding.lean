import Onepass.Proofs.Decimal.Value

/-! # Nearest numbers

A quotient is formed in units of the place at which it has exactly so many digits before the point.
There it is rounded to a nearest whole number of units, the even one of two. No number with at most as
many digits is nearer: one on the grid of the place is another whole number of units, and one that
reaches below the place is shorter than the quotient, so that a power of ten lies between them. Zeros
that are dropped from an exact quotient bring its exponent as close to the preferred one as any way to
write it.
-/

set_option autoImplicit false

namespace Onepass.Decimal

/-! ## Rounding a fraction -/

theorem div_eq_floor_add {dividend divisor : Nat} (positive : 0 < divisor) :
    (dividend : ℚ) / divisor = (dividend / divisor : Nat) + (dividend % divisor : Nat) / divisor := by
  have whole : (dividend : ℚ) = divisor * (dividend / divisor : Nat) + (dividend % divisor : Nat) := by
    exact_mod_cast (Nat.div_add_mod dividend divisor).symm
  have part : (divisor : ℚ) ≠ 0 := by exact_mod_cast positive.ne'
  rw [div_eq_iff part, add_mul, div_mul_cancel₀ _ part, mul_comm ((dividend / divisor : Nat) : ℚ)]
  exact whole

/-- The rounded quotient is a nearest whole number, and the even one of two. -/
theorem roundedQuotient_nearest {dividend divisor : Nat} (positive : 0 < divisor) :
    |(dividend : ℚ) / divisor - roundedQuotient dividend divisor| ≤ 1 / 2 ∧
      (|(dividend : ℚ) / divisor - roundedQuotient dividend divisor| = 1 / 2 →
        roundedQuotient dividend divisor % 2 = 0) := by
  have part : (0 : ℚ) < divisor := by exact_mod_cast positive
  have less : ((dividend % divisor : Nat) : ℚ) / divisor < 1 :=
    (div_lt_one part).2 (by exact_mod_cast Nat.mod_lt dividend positive)
  have atLeast : (0 : ℚ) ≤ (dividend % divisor : Nat) / divisor := by positivity
  rw [div_eq_floor_add positive]
  unfold roundedQuotient
  dsimp only
  split
  case _ below =>
    have fraction : ((dividend % divisor : Nat) : ℚ) / divisor < 1 / 2 := by
      rw [div_lt_iff₀ part]
      have : (2 * (dividend % divisor : Nat) : ℚ) < divisor := by exact_mod_cast below
      linarith
    rw [add_sub_cancel_left, abs_of_nonneg atLeast]
    exact ⟨fraction.le, fun tie => absurd tie fraction.ne⟩
  case _ =>
    split
    case _ above =>
      have fraction : 1 / 2 < ((dividend % divisor : Nat) : ℚ) / divisor := by
        rw [lt_div_iff₀ part]
        have : (divisor : ℚ) < 2 * (dividend % divisor : Nat) := by exact_mod_cast above
        linarith
      push_cast at fraction less ⊢
      rw [add_sub_add_left_eq_sub, abs_sub_comm, abs_of_pos (by linarith)]
      exact ⟨by linarith, fun tie => absurd tie (by linarith)⟩
    case _ =>
      have fraction : ((dividend % divisor : Nat) : ℚ) / divisor = 1 / 2 := by
        rw [div_eq_iff part.ne']
        have : (2 * (dividend % divisor : Nat) : ℚ) = divisor := by
          have same : 2 * (dividend % divisor) = divisor := by omega
          exact_mod_cast same
        linarith
      rw [fraction]
      split
      case _ even =>
        rw [add_sub_cancel_left, abs_of_pos (by norm_num)]
        exact ⟨le_rfl, fun _ => beq_iff_eq.1 even⟩
      case _ odd =>
        push_cast
        rw [add_sub_add_left_eq_sub]
        norm_num
        rw [beq_iff_eq] at odd
        omega

theorem roundedQuotient_of_exact {dividend divisor : Nat} (positive : 0 < divisor)
    (exact : dividend % divisor = 0) : roundedQuotient dividend divisor = dividend / divisor := by
  unfold roundedQuotient
  dsimp only
  rw [exact, Nat.mul_zero, if_pos positive]

theorem one_le_abs_sub_add (quotient : ℚ) {rounded other : ℤ} (ne : other ≠ rounded) :
    1 ≤ |quotient - rounded| + |quotient - other| := by
  have apart : (1 : ℚ) ≤ |(other : ℚ) - rounded| := by
    exact_mod_cast Int.one_le_abs (sub_ne_zero.2 ne)
  have detour := abs_sub_le (other : ℚ) quotient rounded
  rw [abs_sub_comm (other : ℚ) quotient] at detour
  linarith

/-- A whole number within half a unit is a nearest one. -/
theorem abs_sub_le_of_half {quotient : ℚ} {rounded : ℤ} (half : |quotient - rounded| ≤ 1 / 2)
    (other : ℤ) : |quotient - rounded| ≤ |quotient - other| := by
  by_cases same : other = rounded
  · rw [same]
  · linarith [one_le_abs_sub_add quotient same]

/-- Two whole numbers are equally near only if both are half a unit away. -/
theorem eq_half_of_tie {quotient : ℚ} {rounded other : ℤ} (half : |quotient - rounded| ≤ 1 / 2)
    (tie : |quotient - rounded| = |quotient - other|) (ne : other ≠ rounded) :
    |quotient - rounded| = 1 / 2 := by
  linarith [one_le_abs_sub_add quotient ne]

/-! ## The place of the last digit -/

theorem abs_div_abs (left right : Decimal) :
    |left.value| / |right.value| =
      (left.coefficient : ℚ) / right.coefficient * 10 ^ (left.exponent - right.exponent) := by
  rw [abs_value, abs_value, zpow_sub₀ (by norm_num), mul_div_mul_comm]

/-- The fraction is the quotient in units of the place. -/
theorem fractionAt_eq (left right : Decimal) (place : Int) :
    ((fractionAt left right place).1 : ℚ) / (fractionAt left right place).2 =
      |left.value| / |right.value| / 10 ^ place := by
  rw [abs_div_abs, mul_div_assoc, ← zpow_sub₀ (by norm_num)]
  unfold fractionAt powerOfTen
  dsimp only
  split
  case _ above =>
    rw [Nat.cast_mul, Nat.pow_eq, ten_pow_toNat above, mul_div_right_comm]
  case _ below =>
    rw [Nat.cast_mul, Nat.pow_eq, ten_pow_toNat (by omega), zpow_neg, div_mul_eq_div_div,
      div_inv_eq_mul]

theorem fractionAt_pos (left : Decimal) {right : Decimal} (ne : right.value ≠ 0) (place : Int) :
    0 < (fractionAt left right place).2 := by
  have positive : 0 < right.coefficient :=
    Nat.pos_of_ne_zero fun zero => ne (value_eq_zero.2 zero)
  unfold fractionAt powerOfTen
  dsimp only
  split
  · exact positive
  · exact Nat.mul_pos positive (Nat.pow_pos (by decide))

/-- At its place the quotient has exactly so many digits before the point. -/
theorem quotientPlace_spec {digits : Nat} (positive : 0 < digits) {left right : Decimal}
    (leftNe : left.value ≠ 0) (rightNe : right.value ≠ 0) :
    (10 : ℚ) ^ (quotientPlace digits left right + digits - 1) ≤ |left.value| / |right.value| ∧
      |left.value| / |right.value| < 10 ^ (quotientPlace digits left right + digits) := by
  have divisor : (0 : ℚ) < |right.value| := abs_pos.2 rightNe
  have lower : (10 : ℚ) ^ (left.adjusted - right.adjusted - 1) ≤ |left.value| / |right.value| := by
    rw [le_div_iff₀ divisor]
    calc (10 : ℚ) ^ (left.adjusted - right.adjusted - 1) * |right.value|
        ≤ 10 ^ (left.adjusted - right.adjusted - 1) * 10 ^ (right.adjusted + 1) :=
          mul_le_mul_of_nonneg_left (abs_value_lt_zpow_adjusted right).le (ten_zpow_pos _).le
      _ = 10 ^ left.adjusted := by rw [← ten_zpow_add]; congr 1; omega
      _ ≤ |left.value| := zpow_adjusted_le leftNe
  have upper : |left.value| / |right.value| < 10 ^ (left.adjusted - right.adjusted + 1) := by
    rw [div_lt_iff₀ divisor]
    calc |left.value| < 10 ^ (left.adjusted + 1) := abs_value_lt_zpow_adjusted left
      _ = 10 ^ (left.adjusted - right.adjusted + 1) * 10 ^ right.adjusted := by
          rw [← ten_zpow_add]; congr 1; omega
      _ ≤ 10 ^ (left.adjusted - right.adjusted + 1) * |right.value| :=
          mul_le_mul_of_nonneg_left (zpow_adjusted_le rightNe) (ten_zpow_pos _).le
  unfold quotientPlace
  dsimp only
  -- The leading digits leave two places open; the comparison of the fraction decides between them.
  generalize left.adjusted - right.adjusted = distance at lower upper ⊢
  have fraction := fractionAt_eq left right (distance - (digits - 1))
  have part : (0 : ℚ) < (fractionAt left right (distance - (digits - 1))).2 := by
    exact_mod_cast fractionAt_pos left rightNe _
  have unit : ((powerOfTen (digits - 1) : Nat) : ℚ) * 10 ^ (distance - (digits - 1)) =
      10 ^ distance := by
    rw [powerOfTen, Nat.pow_eq, Nat.cast_pow, Nat.cast_ofNat, ← zpow_natCast, ← ten_zpow_add]
    congr 1
    omega
  have threshold : (fractionAt left right (distance - (digits - 1))).1 <
      (fractionAt left right (distance - (digits - 1))).2 * powerOfTen (digits - 1) ↔
        |left.value| / |right.value| < 10 ^ distance := by
    rw [← Nat.cast_lt (α := ℚ), Nat.cast_mul, mul_comm, ← div_lt_iff₀ part, fraction,
      div_lt_iff₀ (ten_zpow_pos _), unit]
  split
  case _ less =>
    have first : distance - (digits - 1) - 1 + digits - 1 = distance - 1 := by omega
    have last : distance - (digits - 1) - 1 + digits = distance := by omega
    rw [first, last]
    exact ⟨lower, threshold.1 less⟩
  case _ enough =>
    have first : distance - (digits - 1) + digits - 1 = distance := by omega
    have last : distance - (digits - 1) + digits = distance + 1 := by omega
    rw [first, last]
    exact ⟨not_lt.1 (mt threshold.2 enough), upper⟩

/-! ## Exponents of exact quotients -/

/-- A number is a way to write a value with at most so many digits. A zero is written at an exponent
that exists. -/
structure Writes (digits : Nat) (value : ℚ) (number : Decimal) : Prop where
  value_eq : number.value = value
  digits_le : digitCount number.coefficient ≤ digits
  in_range : value = 0 → lastPlace digits ≤ number.exponent ∧ number.exponent ≤ maxExponent

/-- A coefficient and its exponent after zeros were dropped: the value is the same, the exponent has
moved toward the preferred one and not beyond it, and before that it stops only at a digit other than
zero. -/
structure ZerosDropped (preferred : Int) (coefficient : Nat) (exponent : Int) (dropped : Nat × Int) :
    Prop where
  positive : 0 < dropped.1
  coefficient_le : dropped.1 ≤ coefficient
  same : (dropped.1 : ℚ) * 10 ^ dropped.2 = coefficient * 10 ^ exponent
  le_exponent : exponent ≤ dropped.2
  exponent_le : dropped.2 ≤ max exponent preferred
  stops : dropped.2 < preferred → dropped.1 % 10 ≠ 0

theorem dropZeros_dropped (preferred : Int) {coefficient : Nat} (positive : 0 < coefficient)
    (exponent : Int) :
    ZerosDropped preferred coefficient exponent (dropZeros preferred coefficient exponent) := by
  fun_induction dropZeros preferred coefficient exponent with
  | case1 coefficient exponent step ih =>
      obtain ⟨_, before, zero⟩ := step
      have dropped := ih (by omega)
      have less := dropped.coefficient_le
      have atLeast := dropped.le_exponent
      have atMost := dropped.exponent_le
      have tenfold : (coefficient : ℚ) = (coefficient / 10 : Nat) * 10 := by
        have whole : coefficient = coefficient / 10 * 10 := by omega
        exact_mod_cast whole
      refine ⟨dropped.positive, by omega, ?_, by omega, by omega, dropped.stops⟩
      rw [dropped.same, ten_zpow_add, zpow_one, tenfold]
      ring
  | case2 coefficient exponent stop =>
      refine ⟨positive, le_rfl, rfl, le_rfl, le_max_left _ _, fun before zero => ?_⟩
      exact stop ⟨positive, before, zero⟩

/-- A number with few digits that is large has no digit below the place. -/
theorem place_le_exponent {digits : Nat} {number : Decimal} {place : Int}
    (few : digitCount number.coefficient ≤ digits)
    (large : (10 : ℚ) ^ (place + digits - 1) ≤ |number.value|) : place ≤ number.exponent := by
  have places := ten_zpow_lt.1 (large.trans_lt (abs_value_lt_zpow_adjusted number))
  unfold adjusted at places
  omega

/-- No other way to write the value has a larger exponent if the last digit is not a zero. -/
theorem exponent_le_of_last_digit {coefficient : Nat} {exponent : Int} {other : Decimal}
    (same : (coefficient : ℚ) * 10 ^ exponent = |other.value|) (last : coefficient % 10 ≠ 0) :
    other.exponent ≤ exponent := by
  by_contra larger
  rw [abs_value_eq_coefficientAt other (show exponent + 1 ≤ other.exponent by omega), ten_zpow_add,
    zpow_one, mul_comm ((10 : ℚ) ^ exponent), ← mul_assoc] at same
  have tenfold : (coefficient : ℚ) = (other.coefficientAt (exponent + 1) * 10 : Nat) := by
    push_cast
    exact mul_right_cancel₀ (ten_zpow_pos _).ne' same
  have whole : coefficient = other.coefficientAt (exponent + 1) * 10 := by exact_mod_cast tenfold
  omega

theorem ZerosDropped.closest {preferred : Int} {coefficient : Nat} {exponent : Int}
    {dropped : Nat × Int} (spec : ZerosDropped preferred coefficient exponent dropped)
    {other : Decimal} (same : (coefficient : ℚ) * 10 ^ exponent = |other.value|)
    (le : exponent ≤ other.exponent) :
    |dropped.2 - preferred| ≤ |other.exponent - preferred| := by
  have most := spec.exponent_le
  by_cases before : dropped.2 < preferred
  · have largest := exponent_le_of_last_digit (spec.same.trans same) (spec.stops before)
    rw [abs_of_nonpos (by omega), abs_of_nonpos (by omega)]
    omega
  · by_cases reached : dropped.2 = preferred
    · rw [reached, sub_self, abs_zero]
      exact abs_nonneg _
    · rw [abs_of_nonneg (by omega), abs_of_nonneg (by omega)]
      omega

/-! ## Nearest numbers -/

/-- A number with so many digits that is nearest to a value among all numbers with at most as many, and
whose coefficient is even if another one is as near. -/
structure NearestEven (digits : Nat) (value : ℚ) (number : Decimal) : Prop where
  digits_eq : digitCount number.coefficient = digits
  nearest : ∀ other : Decimal, digitCount other.coefficient ≤ digits →
    |number.value - value| ≤ |other.value - value|
  even_of_tie : ∀ other : Decimal, digitCount other.coefficient ≤ digits →
    |number.value - value| = |other.value - value| → other.value ≠ number.value →
      number.coefficient % 2 = 0

theorem abs_scaled_sub (rounded quotient : ℚ) (place : Int) :
    |rounded * 10 ^ place - quotient| = |quotient / 10 ^ place - rounded| * 10 ^ place := by
  have power := ten_zpow_pos place
  rw [← abs_of_pos power, ← abs_mul, abs_of_pos power, sub_mul, div_mul_cancel₀ _ power.ne',
    abs_sub_comm]

/-- A number too short for the place is further away than the nearest power of ten, which is a whole
number of units. -/
theorem exists_nearer {digits : Nat} (positive : 0 < digits) {quotient : ℚ} {place : Int}
    (large : (10 : ℚ) ^ (place + digits - 1) ≤ |quotient|) {other : ℚ}
    (short : |other| < 10 ^ (place + digits - 1)) :
    ∃ whole : ℤ, |(whole : ℚ) * 10 ^ place - quotient| < |other - quotient| := by
  have power : (10 : ℚ) ^ (place + digits - 1) = ((10 ^ (digits - 1) : Nat) : ℚ) * 10 ^ place := by
    rw [Nat.cast_pow, Nat.cast_ofNat, ← zpow_natCast, ← ten_zpow_add]
    congr 1
    omega
  have apart := abs_sub_abs_le_abs_sub quotient other
  rw [abs_sub_comm quotient other] at apart
  rcases le_total 0 quotient with above | below
  · refine ⟨(10 ^ (digits - 1) : Nat), ?_⟩
    rw [Int.cast_natCast, ← power]
    rw [abs_of_nonneg above] at large apart
    rw [abs_of_nonpos (by linarith)]
    linarith
  · refine ⟨-(10 ^ (digits - 1) : Nat), ?_⟩
    rw [Int.cast_neg, Int.cast_natCast, neg_mul, ← power]
    rw [abs_of_nonpos below] at large apart
    rw [abs_of_nonneg (by linarith)]
    linarith

/-- A whole number of units within half a unit of a value is nearest to it, and if it is not the only
one, it is half a unit away. -/
theorem nearest_of_half {digits : Nat} (positive : 0 < digits) {quotient : ℚ} {place : Int}
    (large : (10 : ℚ) ^ (place + digits - 1) ≤ |quotient|) {rounded : ℤ}
    (half : |quotient / 10 ^ place - rounded| ≤ 1 / 2) {other : Decimal}
    (few : digitCount other.coefficient ≤ digits) :
    |(rounded : ℚ) * 10 ^ place - quotient| ≤ |other.value - quotient| ∧
      (|(rounded : ℚ) * 10 ^ place - quotient| = |other.value - quotient| →
        other.value ≠ rounded * 10 ^ place → |quotient / 10 ^ place - rounded| = 1 / 2) := by
  have power := ten_zpow_pos place
  have nearer (whole : ℤ) : |(rounded : ℚ) * 10 ^ place - quotient| ≤
      |(whole : ℚ) * 10 ^ place - quotient| := by
    rw [abs_scaled_sub, abs_scaled_sub, mul_le_mul_iff_of_pos_right power]
    exact abs_sub_le_of_half half whole
  by_cases onGrid : place ≤ other.exponent
  · rw [value_eq_signedAt other onGrid]
    refine ⟨nearer _, fun tie ne => ?_⟩
    rw [abs_scaled_sub, abs_scaled_sub] at tie
    refine eq_half_of_tie half (mul_right_cancel₀ power.ne' tie) fun same => ne ?_
    rw [same]
  · obtain ⟨whole, strict⟩ :=
      exists_nearer positive large (not_le.1 (mt (place_le_exponent few) onGrid))
    have further := (nearer whole).trans_lt strict
    exact ⟨further.le, fun tie => absurd tie further.ne⟩

end Onepass.Decimal
