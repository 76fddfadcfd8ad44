import Onepass.Proofs.Decimal.Exact
import Onepass.Proofs.Decimal.Rounding

/-! # Quotients are correctly rounded

A quotient is rounded at the place at which it has exactly 34 digits before the point. If it leaves no
remainder there, it is exact, and loses zeros; otherwise it cannot be written with 34 digits at all, and
rounding gives the nearest number. Rounding up to a further digit gives a power of ten, which has that
digit to spare. The same place tells which quotients are rounded to a number beyond the largest exponent.
-/

set_option autoImplicit false

namespace Onepass

namespace Decimal

/-! ## The rounded quotient -/

/-- The quotient rounded to a whole number of units of the place. -/
def units (left right : Decimal) (place : Int) : Nat :=
  roundedQuotient (fractionAt left right place).1 (fractionAt left right place).2

theorem units_nearest (left : Decimal) {right : Decimal} (ne : right.value ≠ 0) (place : Int) :
    |(|left.value| / |right.value|) / 10 ^ place - units left right place| ≤ 1 / 2 ∧
      (|(|left.value| / |right.value|) / 10 ^ place - units left right place| = 1 / 2 →
        units left right place % 2 = 0) := by
  rw [← fractionAt_eq]
  exact roundedQuotient_nearest (fractionAt_pos left ne place)

/-- The quotient leaves no remainder at the place. -/
def ExactAt (left right : Decimal) (place : Int) : Prop :=
  (fractionAt left right place).1 % (fractionAt left right place).2 = 0

instance (left right : Decimal) (place : Int) : Decidable (ExactAt left right place) :=
  inferInstanceAs (Decidable (_ = _))

theorem exactAt_iff_whole {left right : Decimal} (ne : right.value ≠ 0) (place : Int) :
    ExactAt left right place ↔
      ∃ whole : Nat, (|left.value| / |right.value|) / 10 ^ place = whole := by
  have positive := fractionAt_pos left ne place
  rw [ExactAt, ← fractionAt_eq]
  generalize (fractionAt left right place).1 = dividend
  generalize (fractionAt left right place).2 = divisor at positive
  have part : (divisor : ℚ) ≠ 0 := by exact_mod_cast positive.ne'
  constructor
  · intro exact
    refine ⟨dividend / divisor, ?_⟩
    rw [div_eq_floor_add positive, exact, Nat.cast_zero, zero_div, add_zero]
  · rintro ⟨whole, same⟩
    rw [div_eq_iff part] at same
    have product : dividend = whole * divisor := by exact_mod_cast same
    rw [product, Nat.mul_mod_left]

theorem units_of_exact {left right : Decimal} (ne : right.value ≠ 0) {place : Int}
    (exact : ExactAt left right place) :
    (units left right place : ℚ) * 10 ^ place = |left.value| / |right.value| := by
  have positive := fractionAt_pos left ne place
  rw [units, roundedQuotient_of_exact positive exact, ← eq_div_iff (ten_zpow_pos _).ne',
    ← fractionAt_eq, div_eq_floor_add positive, exact, Nat.cast_zero, zero_div, add_zero]

/-- The coefficient and the exponent of the quotient that is rounded at a place: an exact one loses
zeros, and one that was rounded up to a further digit loses that. -/
def roundedAt (left right : Decimal) (place : Int) : Nat × Int :=
  if ExactAt left right place then
    dropZeros (left.exponent - right.exponent) (units left right place) place
  else if digitCount (units left right place) ≤ quotientDigits then (units left right place, place)
  else (units left right place / 10, place + 1)

/-- The quotient that is rounded at a place, before the range of exponents is looked at. -/
def quotientAt (left right : Decimal) (place : Int) : Decimal :=
  ⟨left.negative != right.negative, (roundedAt left right place).1, (roundedAt left right place).2⟩

/-- A quotient whose last digit is not below the last place is rounded there. -/
theorem div_eq {left right : Decimal} (ne : left.value ≠ 0)
    (reaches : lastPlace quotientDigits ≤ quotientPlace quotientDigits left right) :
    left.div right =
      intoRange quotientDigits
        (quotientAt left right (quotientPlace quotientDigits left right)) := by
  have near : ¬ quotientPlace quotientDigits left right + quotientDigits < lastPlace quotientDigits := by
    omega
  unfold div
  dsimp only
  rw [isZero_eq_false_iff.2 ne, if_neg Bool.false_ne_true, if_neg near, max_eq_left reaches]
  rfl

/-- A rational number with the sign that the rule of signs gives. -/
def signed (left right : Decimal) (magnitude : ℚ) : ℚ :=
  if (left.negative != right.negative) = true then -magnitude else magnitude

theorem abs_signed (left right : Decimal) (magnitude : ℚ) :
    |signed left right magnitude| = |magnitude| := by
  unfold signed
  split
  · exact abs_neg magnitude
  · rfl

theorem signed_mul (left right : Decimal) (magnitude factor : ℚ) :
    signed left right (magnitude * factor) = signed left right magnitude * factor := by
  unfold signed
  split
  · exact (neg_mul magnitude factor).symm
  · rfl

theorem signed_sub (left right : Decimal) (first second : ℚ) :
    signed left right (first - second) = signed left right first - signed left right second := by
  unfold signed
  split
  · exact neg_sub' first second
  · rfl

theorem exists_signed_natCast (left right : Decimal) (magnitude : Nat) :
    ∃ whole : ℤ, (whole : ℚ) = signed left right magnitude := by
  unfold signed
  split
  · exact ⟨-magnitude, by push_cast; rfl⟩
  · exact ⟨magnitude, Int.cast_natCast magnitude⟩

theorem value_div_value (left right : Decimal) :
    left.value / right.value = signed left right (|left.value| / |right.value|) := by
  unfold signed
  cases leftSign : left.negative <;> cases rightSign : right.negative
  · rw [value_of_positive leftSign, value_of_positive rightSign, abs_abs, abs_abs]
    rfl
  · rw [value_of_positive leftSign, value_of_negative rightSign, abs_abs, abs_neg, abs_abs, div_neg]
    rfl
  · rw [value_of_negative leftSign, value_of_positive rightSign, abs_abs, abs_neg, abs_abs, neg_div]
    rfl
  · rw [value_of_negative leftSign, value_of_negative rightSign, abs_neg, abs_neg, abs_abs, abs_abs,
      neg_div_neg_eq]
    rfl

theorem value_quotientAt (left right : Decimal) (place : Int) :
    (quotientAt left right place).value =
      signed left right ((roundedAt left right place).1 * 10 ^ (roundedAt left right place).2) := by
  unfold value quotientAt signed
  dsimp only
  split
  · rw [neg_mul]
  · rfl

/-- The quotient by a number that is not zero has as many digits before the place as a coefficient may
have. -/
structure Placed (left right : Decimal) (place : Int) : Prop where
  divisor_ne : right.value ≠ 0
  lower : (10 : ℚ) ^ (place + quotientDigits - 1) ≤ |left.value| / |right.value|
  upper : |left.value| / |right.value| < 10 ^ (place + quotientDigits)

namespace Placed

variable {left right : Decimal} {place : Int}

/-- Rounding leaves as many digits, or comes to the next power of ten. -/
theorem units_bounds (placed : Placed left right place) :
    10 ^ 33 ≤ units left right place ∧ units left right place ≤ 10 ^ 34 := by
  have half := abs_le.1 (units_nearest left placed.divisor_ne place).1
  have lower : (10 : ℚ) ^ 33 ≤ |left.value| / |right.value| / 10 ^ place := by
    have first : place + quotientDigits - 1 = ((33 : Nat) : Int) + place := by
      unfold quotientDigits
      omega
    rw [le_div_iff₀ (ten_zpow_pos _), ← zpow_natCast, ← ten_zpow_add, ← first]
    exact placed.lower
  have upper : |left.value| / |right.value| / 10 ^ place < (10 : ℚ) ^ 34 := by
    have next : place + quotientDigits = ((34 : Nat) : Int) + place := by
      unfold quotientDigits
      omega
    rw [div_lt_iff₀ (ten_zpow_pos _), ← zpow_natCast, ← ten_zpow_add, ← next]
    exact placed.upper
  constructor
  · rw [← Nat.lt_add_one_iff, ← Nat.cast_lt (α := ℚ)]
    push_cast
    linarith
  · rw [← Nat.lt_add_one_iff, ← Nat.cast_lt (α := ℚ)]
    push_cast
    linarith

/-- An exact quotient has at most as many digits as a coefficient may have. -/
theorem units_lt_of_exact (placed : Placed left right place)
    (exact : ExactAt left right place) :
    units left right place < 10 ^ 34 := by
  have upper := placed.upper
  have next : place + quotientDigits = ((34 : Nat) : Int) + place := by
    unfold quotientDigits
    omega
  rw [← units_of_exact placed.divisor_ne exact, next, ten_zpow_add, zpow_natCast,
    mul_lt_mul_iff_of_pos_right (ten_zpow_pos _)] at upper
  exact_mod_cast upper

theorem dropped_of_exact (placed : Placed left right place)
    (exact : ExactAt left right place) :
    ZerosDropped (left.exponent - right.exponent) (units left right place) place
      (roundedAt left right place) := by
  have positive : 0 < units left right place :=
    (Nat.pow_pos (by decide)).trans_le placed.units_bounds.1
  rw [roundedAt, if_pos exact]
  exact dropZeros_dropped _ positive place

/-- An exact quotient is written with its value. -/
theorem writes_of_exact (placed : Placed left right place)
    (exact : ExactAt left right place) :
    Writes quotientDigits (left.value / right.value) (quotientAt left right place) := by
  have dropped := placed.dropped_of_exact exact
  have value : (quotientAt left right place).value = left.value / right.value := by
    rw [value_quotientAt, dropped.same, units_of_exact placed.divisor_ne exact, value_div_value]
  refine ⟨value, ?_, fun zero => ?_⟩
  · rw [digitCount_le_iff (by decide)]
    exact dropped.coefficient_le.trans_lt (placed.units_lt_of_exact exact)
  · rw [← value, value_eq_zero] at zero
    exact absurd zero dropped.positive.ne'

theorem place_le_of_writes (placed : Placed left right place) {other : Decimal}
    (writes : Writes quotientDigits (left.value / right.value) other) : place ≤ other.exponent := by
  refine place_le_exponent writes.digits_le ?_
  rw [writes.value_eq, abs_div]
  exact placed.lower

/-- A quotient that can be written with so few digits is exact at the place. -/
theorem exact_of_writes (placed : Placed left right place) {other : Decimal}
    (writes : Writes quotientDigits (left.value / right.value) other) :
    ExactAt left right place := by
  rw [exactAt_iff_whole placed.divisor_ne]
  refine ⟨other.coefficientAt place, ?_⟩
  rw [div_eq_iff (ten_zpow_pos _).ne',
    ← abs_value_eq_coefficientAt other (placed.place_le_of_writes writes), writes.value_eq, abs_div]

/-- Of all ways to write an exact quotient, the one that is given has the exponent closest to the
preferred one. -/
theorem closest_of_writes (placed : Placed left right place) {other : Decimal}
    (writes : Writes quotientDigits (left.value / right.value) other) :
    |(quotientAt left right place).exponent - (left.exponent - right.exponent)| ≤
      |other.exponent - (left.exponent - right.exponent)| := by
  have exact := placed.exact_of_writes writes
  refine (placed.dropped_of_exact exact).closest ?_ (placed.place_le_of_writes writes)
  rw [units_of_exact placed.divisor_ne exact, writes.value_eq, abs_div]

/-- A rounded quotient has all its digits. If it was rounded up to a power of ten, its last digit is
the zero that is dropped. -/
theorem rounded_of_inexact (placed : Placed left right place)
    (inexact : ¬ ExactAt left right place) :
    ((roundedAt left right place).1 : ℚ) * 10 ^ (roundedAt left right place).2 =
        units left right place * 10 ^ place ∧
      digitCount (roundedAt left right place).1 = quotientDigits ∧
      (units left right place % 2 = 0 → (roundedAt left right place).1 % 2 = 0) := by
  obtain ⟨lower, upper⟩ := placed.units_bounds
  rw [roundedAt, if_neg inexact]
  split
  case _ few =>
    rw [digitCount_le_iff (by decide)] at few
    exact ⟨rfl, (digitCount_eq_iff (by omega)).2 ⟨lower, few⟩, id⟩
  case _ many =>
    rw [digitCount_le_iff (by decide)] at many
    have power : units left right place = 10 ^ 34 := le_antisymm upper (not_lt.1 many)
    rw [power, show 10 ^ 34 / 10 = 10 ^ 33 by norm_num]
    refine ⟨?_, (digitCount_eq_iff (by norm_num)).2 ⟨le_rfl, by norm_num⟩, fun _ => by norm_num⟩
    rw [ten_zpow_add, zpow_one]
    push_cast
    ring

/-- A quotient that cannot be written with so few digits is the nearest number with all of them. -/
theorem nearestEven_of_inexact (placed : Placed left right place)
    (inexact : ¬ ExactAt left right place) :
    NearestEven quotientDigits (left.value / right.value) (quotientAt left right place) := by
  obtain ⟨same, digits, parity⟩ := placed.rounded_of_inexact inexact
  obtain ⟨half, even⟩ := units_nearest left placed.divisor_ne place
  obtain ⟨rounded, whole⟩ := exists_signed_natCast left right (units left right place)
  have value : (quotientAt left right place).value = rounded * 10 ^ place := by
    rw [value_quotientAt, same, signed_mul, whole]
  have distance : |left.value / right.value / 10 ^ place - rounded| =
      |(|left.value| / |right.value|) / 10 ^ place - units left right place| := by
    rw [whole, value_div_value, div_eq_mul_inv, ← signed_mul, ← signed_sub, abs_signed,
      ← div_eq_mul_inv]
  rw [← distance] at half even
  have large : (10 : ℚ) ^ (place + quotientDigits - 1) ≤ |left.value / right.value| := by
    rw [abs_div]
    exact placed.lower
  refine ⟨digits, fun other few => ?_, fun other few tie ne => ?_⟩
  · rw [value]
    exact (nearest_of_half (by decide) large half few).1
  · rw [value] at tie ne
    exact parity (even ((nearest_of_half (by decide) large half few).2 tie ne))

theorem digits_le (placed : Placed left right place) :
    digitCount (quotientAt left right place).coefficient ≤ quotientDigits := by
  by_cases exact : ExactAt left right place
  · exact (placed.writes_of_exact exact).digits_le
  · exact (placed.nearestEven_of_inexact exact).digits_eq.le

theorem abs_quotientAt (placed : Placed left right place) :
    |(quotientAt left right place).value| = units left right place * 10 ^ place := by
  rw [value_quotientAt, abs_signed, abs_of_nonneg (by positivity)]
  by_cases exact : ExactAt left right place
  · exact (placed.dropped_of_exact exact).same
  · exact (placed.rounded_of_inexact exact).1

theorem le_exponent (placed : Placed left right place) :
    place ≤ (quotientAt left right place).exponent := by
  by_cases exact : ExactAt left right place
  · exact (placed.dropped_of_exact exact).le_exponent
  · unfold quotientAt roundedAt
    dsimp only
    rw [if_neg exact]
    split <;> dsimp only <;> omega

theorem quotientAt_ne (placed : Placed left right place) :
    (quotientAt left right place).value ≠ 0 := by
  have positive : (0 : ℚ) < units left right place := by
    exact_mod_cast (Nat.pow_pos (by decide)).trans_le placed.units_bounds.1
  rw [← abs_pos, placed.abs_quotientAt]
  exact mul_pos positive (ten_zpow_pos _)

end Placed

/-! ## The range of quotients -/

/-- The least magnitude that is rounded to a number beyond the largest exponent. -/
def roundingLimit : ℚ :=
  (10 ^ 34 - 1 / 2) * 10 ^ (maxExponent - 33)

/-- The quotient lies in the range of exponents: it is zero, or its leading digit is neither below the
smallest exponent nor, after rounding, beyond the largest. -/
def QuotientFits (quotient : ℚ) : Prop :=
  quotient = 0 ∨ 10 ^ (-maxExponent) ≤ |quotient| ∧ |quotient| < roundingLimit

theorem roundingLimit_lt : roundingLimit < limit := by
  have split : maxExponent + 1 = ((34 : Nat) : Int) + (maxExponent - 33) := by omega
  rw [roundingLimit, limit, split, ten_zpow_add, zpow_natCast]
  exact mul_lt_mul_of_pos_right (by norm_num) (ten_zpow_pos _)

theorem lt_roundingLimit : (10 : ℚ) ^ maxExponent < roundingLimit := by
  have split : maxExponent = ((33 : Nat) : Int) + (maxExponent - 33) := by omega
  rw [roundingLimit]
  nth_rewrite 1 [split]
  rw [ten_zpow_add, zpow_natCast]
  exact mul_lt_mul_of_pos_right (by norm_num) (ten_zpow_pos _)

theorem QuotientFits.of_moderate {quotient : ℚ} (least : 1 / 10 ≤ |quotient|)
    (most : |quotient| < 10) : QuotientFits quotient := by
  have smallest : (10 : ℚ) ^ (-maxExponent) ≤ 10 ^ (-1 : Int) := ten_zpow_le.2 (by decide)
  have largest : (10 : ℚ) ^ (1 : Int) ≤ 10 ^ maxExponent := ten_zpow_le.2 (by decide)
  rw [zpow_neg_one, ← one_div] at smallest
  rw [zpow_one] at largest
  exact .inr ⟨smallest.trans least, most.trans_le (largest.trans lt_roundingLimit.le)⟩

section

variable {left right : Decimal}

theorem placed_quotientPlace (leftNe : left.value ≠ 0) (rightNe : right.value ≠ 0) :
    Placed left right (quotientPlace quotientDigits left right) := by
  obtain ⟨lower, upper⟩ := @quotientPlace_spec quotientDigits (by decide) _ _ leftNe rightNe
  exact ⟨rightNe, lower, upper⟩

variable {place : Int}

/-- A quotient that does not reach below the smallest exponent has no digit below the last place. -/
theorem Placed.reaches (placed : Placed left right place)
    (large : (10 : ℚ) ^ (-maxExponent) ≤ |left.value / right.value|) :
    lastPlace quotientDigits ≤ place := by
  rw [abs_div] at large
  have places := ten_zpow_lt.1 (large.trans_lt placed.upper)
  unfold lastPlace
  unfold quotientDigits at places ⊢
  omega

/-- A quotient below the limit of rounding is not rounded to the limit of all numbers. -/
theorem Placed.small (placed : Placed left right place)
    (below : |left.value / right.value| < roundingLimit) :
    |(quotientAt left right place).value| < limit := by
  rw [abs_div] at below
  have half := abs_le.1 (units_nearest left placed.divisor_ne place).1
  have least := ten_zpow_lt.1 (placed.lower.trans_lt (below.trans roundingLimit_lt))
  have next : (10 : ℚ) ^ (((34 : Nat) : Int) + place) = 10 ^ 34 * 10 ^ place := by
    rw [ten_zpow_add, zpow_natCast]
  rw [placed.abs_quotientAt]
  by_cases last : place = maxExponent - 33
  · have fewer : (units left right place : ℚ) < 10 ^ 34 := by
      rw [roundingLimit, ← last, ← div_lt_iff₀ (ten_zpow_pos _)] at below
      linarith
    calc (units left right place : ℚ) * 10 ^ place < 10 ^ 34 * 10 ^ place :=
          mul_lt_mul_of_pos_right fewer (ten_zpow_pos _)
      _ = limit := by rw [← next, limit]; congr 1; omega
  · have most : (units left right place : ℚ) ≤ 10 ^ 34 := by
      exact_mod_cast placed.units_bounds.2
    unfold quotientDigits at least
    calc (units left right place : ℚ) * 10 ^ place ≤ 10 ^ 34 * 10 ^ place :=
          mul_le_mul_of_nonneg_right most (ten_zpow_pos _).le
      _ = 10 ^ (((34 : Nat) : Int) + place) := next.symm
      _ < limit := ten_zpow_lt.2 (by omega)

/-- A quotient from the limit of rounding on is rounded to the limit of all numbers or beyond. At the
limit itself the even one of two neighbours is the larger. -/
theorem Placed.large (placed : Placed left right place)
    (above : roundingLimit ≤ |left.value / right.value|) :
    limit ≤ |(quotientAt left right place).value| := by
  rw [abs_div] at above
  obtain ⟨half, even⟩ := units_nearest left placed.divisor_ne place
  have most := ten_zpow_lt.1 (lt_roundingLimit.trans (above.trans_lt placed.upper))
  rw [placed.abs_quotientAt]
  unfold quotientDigits at most
  by_cases last : place = maxExponent - 33
  · have all : (10 ^ 34 : Nat) ≤ units left right place := by
      rw [roundingLimit, ← last, ← le_div_iff₀ (ten_zpow_pos _)] at above
      by_contra fewer
      have less : (units left right place : ℚ) + 1 ≤ 10 ^ 34 := by
        exact_mod_cast Nat.succ_le_of_lt (not_le.1 fewer)
      have within := (abs_le.1 half).2
      have tie := half.antisymm ((show (1 / 2 : ℚ) ≤ _ by linarith).trans (le_abs_self _))
      have neighbour : (units left right place : ℚ) + 1 = 10 ^ 34 := by linarith
      have odd : units left right place + 1 = 10 ^ 34 := by exact_mod_cast neighbour
      have := even tie
      omega
    calc limit = ((10 ^ 34 : Nat) : ℚ) * 10 ^ place := by
          rw [Nat.cast_pow, Nat.cast_ofNat, ← zpow_natCast, ← ten_zpow_add, limit]; congr 1; omega
      _ ≤ units left right place * 10 ^ place :=
          mul_le_mul_of_nonneg_right (by exact_mod_cast all) (ten_zpow_pos _).le
  · calc limit ≤ (10 : ℚ) ^ (((33 : Nat) : Int) + place) := ten_zpow_le.2 (by omega)
      _ = ((10 ^ 33 : Nat) : ℚ) * 10 ^ place := by
          rw [ten_zpow_add, zpow_natCast, Nat.cast_pow, Nat.cast_ofNat]
      _ ≤ units left right place * 10 ^ place :=
          mul_le_mul_of_nonneg_right (by exact_mod_cast placed.units_bounds.1) (ten_zpow_pos _).le

end

/-! ## Division -/

theorem intoRange_of_large {digits : Nat} {number : Decimal} (large : limit ≤ |number.value|) :
    intoRange digits number = .error .overflow := by
  have ne : number.value ≠ 0 := by
    intro zero
    rw [zero, abs_zero] at large
    exact (ten_zpow_pos _).not_ge large
  have beyond := not_le.1 (mt (small_iff_adjusted_le ne).2 (not_lt.2 large))
  unfold intoRange
  dsimp only
  rw [isZero_eq_false_iff.2 ne, if_neg Bool.false_ne_true, if_pos beyond]

theorem negative_of_intoRange {digits : Nat} {number result : Decimal}
    (brought : intoRange digits number = .ok result) : result.negative = number.negative := by
  unfold intoRange at brought
  dsimp only at brought
  split at brought
  · cases brought
    rfl
  · split at brought
    · cases brought
    · split at brought <;> cases brought <;> rfl

/-- A number that is not zero lies in range if it is small enough and has no digit below the last
place. -/
theorem InRange.of_ne {digits : Nat} {number : Decimal} (ne : number.value ≠ 0)
    (small : |number.value| < limit) (last : lastPlace digits ≤ number.exponent) :
    InRange digits number.value number.exponent :=
  ⟨small, last, (exponent_le_adjusted number).trans ((small_iff_adjusted_le ne).1 small)⟩

theorem negative_of_div {left right number : Decimal} (divided : left.div right = .ok number) :
    number.negative = (left.negative != right.negative) := by
  unfold div at divided
  dsimp only at divided
  split at divided
  · exact negative_of_intoRange divided
  · split at divided
    · cases divided
      rfl
    · exact negative_of_intoRange divided

/-- The quotient of a zero is a zero at the exponent that exists closest to the preferred one. -/
theorem div_of_zero {left right : Decimal} (zero : left.value = 0) :
    left.div right = .ok ⟨left.negative != right.negative, 0,
      max (lastPlace quotientDigits) (min (left.exponent - right.exponent) maxExponent)⟩ := by
  unfold div
  dsimp only
  rw [if_pos (isZero_iff.2 zero)]
  rfl

theorem writes_zero (negative : Bool) (preferred : Int) :
    Writes quotientDigits 0
      ⟨negative, 0, max (lastPlace quotientDigits) (min preferred maxExponent)⟩ := by
  have range : lastPlace quotientDigits ≤ maxExponent := by decide
  refine ⟨value_eq_zero.2 rfl, ?_, fun _ => ⟨le_max_left _ _, max_le range (min_le_right _ _)⟩⟩
  rw [digitCount_zero]
  decide

theorem abs_clamp_sub_le {lower upper preferred other : Int} (least : lower ≤ other)
    (most : other ≤ upper) : |max lower (min preferred upper) - preferred| ≤ |other - preferred| := by
  rcases lt_or_ge preferred lower with below | above
  · rw [abs_of_nonneg (by omega), abs_of_nonneg (by omega)]
    omega
  · rcases le_or_gt preferred upper with inside | beyond
    · rw [min_eq_left inside, max_eq_right above, sub_self, abs_zero]
      exact abs_nonneg _
    · rw [abs_of_nonpos (by omega), abs_of_nonpos (by omega)]
      omega

/-- A quotient in range is the one that is rounded at the place of its last digit. -/
theorem div_of_fits {left right : Decimal} (leftNe : left.value ≠ 0) (rightNe : right.value ≠ 0)
    (large : (10 : ℚ) ^ (-maxExponent) ≤ |left.value / right.value|)
    (below : |left.value / right.value| < roundingLimit) :
    left.div right = .ok (quotientAt left right (quotientPlace quotientDigits left right)) := by
  have placed := placed_quotientPlace leftNe rightNe
  have reaches := placed.reaches large
  rw [div_eq leftNe reaches]
  exact intoRange_of_inRange
    (.of_ne placed.quotientAt_ne (placed.small below) (reaches.trans placed.le_exponent))

theorem div_of_large {left right : Decimal} (leftNe : left.value ≠ 0) (rightNe : right.value ≠ 0)
    (above : roundingLimit ≤ |left.value / right.value|) : left.div right = .error .overflow := by
  have placed := placed_quotientPlace leftNe rightNe
  have large : (10 : ℚ) ^ (-maxExponent) ≤ |left.value / right.value| :=
    (ten_zpow_le.2 (by decide)).trans (lt_roundingLimit.le.trans above)
  rw [div_eq leftNe (placed.reaches large)]
  exact intoRange_of_large (placed.large above)

end Decimal

namespace Heap

open Decimal

theorem binary_div (heap : Heap) {left right : Decimal} (ne : right.value ≠ 0) :
    heap.binary .div (.number left) (.number right) = numberResult (left.div right) := by
  rw [binary, isZero_eq_false_iff.2 ne]
  rfl

theorem eq_of_numberResult {result : Except Decimal.Fault Decimal} {number : Decimal}
    (given : numberResult result = .ok (.number number)) : result = .ok number := by
  cases result <;> cases given
  rfl

/-- Quotients are correctly rounded. A zero divisor is the only one that is refused as such. By any other
number, a quotient in range has at most 34 digits. If it can be written with 34 digits, it is exact, and
of all ways to write it, it has the exponent closest to the difference of the exponents. Otherwise it has
34 digits and is the nearest such number, and of two the one with the even coefficient. The sign is that
of the rule of signs, for zeros too. A quotient that would be rounded to beyond the largest exponent is
a fault. -/
theorem division_correctly_rounded (heap : Heap) (left right : Decimal) :
    (heap.Refuses .div (.number left) (.number right) .zeroDivision ↔ right.value = 0) ∧
      (right.value ≠ 0 → QuotientFits (left.value / right.value) →
        ∃ number, heap.binary .div (.number left) (.number right) = .ok (.number number) ∧
          digitCount number.coefficient ≤ 34 ∧
          ((∃ other, Writes 34 (left.value / right.value) other) →
            number.value = left.value / right.value ∧
            ∀ other, Writes 34 (left.value / right.value) other →
              |number.exponent - (left.exponent - right.exponent)| ≤
                |other.exponent - (left.exponent - right.exponent)|) ∧
          ((¬ ∃ other, Writes 34 (left.value / right.value) other) →
            NearestEven 34 (left.value / right.value) number)) ∧
      (∀ number, heap.binary .div (.number left) (.number right) = .ok (.number number) →
        number.negative = (left.negative != right.negative)) ∧
      (right.value ≠ 0 → roundingLimit ≤ |left.value / right.value| →
        heap.binary .div (.number left) (.number right) = .error (.number .overflow)) := by
  refine ⟨heap.refuses_zeroDivision_iff (.inl rfl) left right, ?_, ?_, ?_⟩
  · intro rightNe fits
    rw [heap.binary_div rightNe]
    by_cases leftZero : left.value = 0
    · have written := writes_zero (left.negative != right.negative) (left.exponent - right.exponent)
      rw [div_of_zero leftZero, leftZero, zero_div]
      refine ⟨_, rfl, written.digits_le, fun _ => ⟨written.value_eq, fun other writes => ?_⟩,
        fun unwritten => absurd ⟨_, written⟩ unwritten⟩
      exact abs_clamp_sub_le (writes.in_range rfl).1 (writes.in_range rfl).2
    · obtain ⟨large, below⟩ := fits.resolve_left (div_ne_zero leftZero rightNe)
      have placed := placed_quotientPlace leftZero rightNe
      rw [div_of_fits leftZero rightNe large below]
      refine ⟨_, rfl, placed.digits_le, ?_, ?_⟩
      · rintro ⟨some, written⟩
        exact ⟨(placed.writes_of_exact (placed.exact_of_writes written)).value_eq,
          fun _ writes => placed.closest_of_writes writes⟩
      · intro unwritten
        exact placed.nearestEven_of_inexact fun exact => unwritten ⟨_, placed.writes_of_exact exact⟩
  · intro number divided
    by_cases rightZero : right.value = 0
    · obtain ⟨cause, refused, -⟩ := (heap.refuses_zeroDivision_iff (.inl rfl) left right).2 rightZero
      rw [refused] at divided
      cases divided
    · rw [heap.binary_div rightZero] at divided
      exact negative_of_div (eq_of_numberResult divided)
  · intro rightNe above
    have leftNe : left.value ≠ 0 := by
      intro zero
      rw [zero, zero_div, abs_zero] at above
      exact ((ten_zpow_pos _).trans lt_roundingLimit).not_ge above
    rw [heap.binary_div rightNe, div_of_large leftNe rightNe above]
    rfl

/-- Two thirds have more digits than fit, minus one eighth is exact with three places although two are
preferred, and ten times the number with the largest exponent is out of range. -/
theorem division_correctly_rounded_thirds :
    let two : Decimal := ⟨false, 2, 0⟩
    let three : Decimal := ⟨false, 3, 0⟩
    let minusOne : Decimal := ⟨true, 100, -2⟩
    let eight : Decimal := ⟨false, 8, 0⟩
    let largest : Decimal := ⟨false, 1, 999999999999999999⟩
    let tenth : Decimal := ⟨false, 1, -1⟩
    (∃ number, empty.binary .div (.number two) (.number three) = .ok (.number number) ∧
        NearestEven 34 (2 / 3) number) ∧
      (∃ number, empty.binary .div (.number minusOne) (.number eight) = .ok (.number number) ∧
        number.value = -1 / 8 ∧ number.negative = true ∧
        ∀ other, Writes 34 (-1 / 8) other → |number.exponent - -2| ≤ |other.exponent - -2|) ∧
      empty.binary .div (.number largest) (.number tenth) = .error (.number .overflow) := by
  intro two three minusOne eight largest tenth
  have thirds : two.value / three.value = 2 / 3 := by norm_num [two, three, value]
  have eighth : minusOne.value / eight.value = -1 / 8 := by norm_num [minusOne, eight, value]
  have twoNe : two.value ≠ 0 := isZero_eq_false_iff.1 rfl
  have threeNe : three.value ≠ 0 := isZero_eq_false_iff.1 rfl
  refine ⟨?_, ?_, ?_⟩
  · have unwritten : ¬ ∃ other, Writes 34 (two.value / three.value) other := by
      rintro ⟨other, writes⟩
      have exact := (placed_quotientPlace twoNe threeNe).exact_of_writes writes
      exact absurd exact (by decide +kernel)
    obtain ⟨number, given, -, -, nearest⟩ := (division_correctly_rounded empty two three).2.1 threeNe
      (thirds ▸ .of_moderate (by norm_num) (by norm_num))
    exact ⟨number, given, thirds ▸ nearest unwritten⟩
  · have written : Writes 34 (minusOne.value / eight.value) ⟨true, 125, -3⟩ := by
      rw [eighth]
      exact ⟨by norm_num [value], by decide +kernel, fun zero => absurd zero (by norm_num)⟩
    obtain ⟨-, rounded, sign, -⟩ := division_correctly_rounded empty minusOne eight
    obtain ⟨number, given, -, exact, -⟩ := rounded (isZero_eq_false_iff.1 rfl)
      (eighth ▸ .of_moderate (by norm_num [abs_div]) (by norm_num [abs_div]))
    obtain ⟨value, closest⟩ := exact ⟨_, written⟩
    exact ⟨number, given, value.trans eighth, sign number given, eighth ▸ closest⟩
  · have quotient : |largest.value / tenth.value| = limit := by
      rw [abs_div, abs_div_abs]
      change ((1 : Nat) : ℚ) / (1 : Nat) * 10 ^ (maxExponent + 1) = limit
      rw [Nat.cast_one, div_one, one_mul, limit]
    exact (division_correctly_rounded empty largest tenth).2.2.2 (isZero_eq_false_iff.1 rfl)
      (quotient ▸ roundingLimit_lt.le)

end Heap

end Onepass
