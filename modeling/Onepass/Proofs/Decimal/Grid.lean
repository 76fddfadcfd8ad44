import Mathlib.Algebra.Ring.Int.Defs
import Mathlib.Algebra.Ring.Nat
import Onepass.Decimal.Arithmetic

/-! # Numbers on a grid

A number is a whole multiple of every power of ten that is not above its exponent. On a grid that is
fine enough for all numbers that take part, sums are sums of whole numbers.
-/

set_option autoImplicit false

namespace Onepass.Decimal

theorem shift_eq (coefficient zeros : Nat) : shift coefficient zeros = coefficient * 10 ^ zeros := by
  unfold shift
  split
  case _ zero => simp_all
  case _ => rfl

theorem lt_pow_digitCountFrom (number count : Nat) : number < 10 ^ digitCountFrom number count := by
  fun_induction digitCountFrom number count with
  | case1 count small => exact small
  | case2 count _ ih => exact ih

theorem lt_pow_digitCount (number : Nat) : number < 10 ^ digitCount number :=
  lt_pow_digitCountFrom number _

theorem natAbs_signedAt_eq_coefficientAt (number : Decimal) (exponent : Int) :
    (number.signedAt exponent).natAbs = number.coefficientAt exponent := by
  unfold signedAt
  split
  · exact Int.natAbs_neg _
  · rfl

theorem natAbs_signedAt (number : Decimal) (exponent : Int) :
    (number.signedAt exponent).natAbs =
      number.coefficient * 10 ^ (number.exponent - exponent).toNat := by
  rw [natAbs_signedAt_eq_coefficientAt, coefficientAt, shift_eq]

/-- On a finer grid every number is the same multiple of what it was. -/
theorem signedAt_finer (number : Decimal) {exponent finer : Int} (le : finer ≤ exponent)
    (above : exponent ≤ number.exponent) :
    number.signedAt finer = number.signedAt exponent * 10 ^ (exponent - finer).toNat := by
  have zeros : (number.exponent - finer).toNat =
      (number.exponent - exponent).toNat + (exponent - finer).toNat := by omega
  unfold signedAt coefficientAt
  rw [shift_eq, shift_eq, zeros, Nat.pow_add, ← Nat.mul_assoc]
  split
  · push_cast
    rw [Int.neg_mul]
  · push_cast
    rfl

theorem signedAt_exactSum_exponent (left right : Decimal) :
    (exactSum left right).signedAt (min left.exponent right.exponent) =
      left.signedAt (min left.exponent right.exponent) +
        right.signedAt (min left.exponent right.exponent) := by
  generalize same : min left.exponent right.exponent = exponent
  generalize added : left.signedAt exponent + right.signedAt exponent = sum
  have exact : exactSum left right =
      ⟨if sum = 0 then left.negative && right.negative else sum < 0, sum.natAbs, exponent⟩ := by
    unfold exactSum
    dsimp only
    rw [same, added]
  rw [exact]
  unfold signedAt coefficientAt
  dsimp only
  rw [shift_eq, Int.sub_self, Int.toNat_zero, Nat.pow_zero, Nat.mul_one]
  by_cases none : sum = 0
  · simp [none]
  · rw [if_neg none]
    split
    case _ negative =>
      have := of_decide_eq_true negative
      omega
    case _ positive =>
      have := of_decide_eq_false (Bool.not_eq_true _ ▸ positive)
      omega

/-- On a grid that is fine enough, the exact sum is the sum. -/
theorem signedAt_exactSum (left right : Decimal) {exponent : Int} (atLeft : exponent ≤ left.exponent)
    (atRight : exponent ≤ right.exponent) :
    (exactSum left right).signedAt exponent = left.signedAt exponent + right.signedAt exponent := by
  have le : exponent ≤ min left.exponent right.exponent := by omega
  rw [signedAt_finer _ le (Int.le_refl _), signedAt_finer left le (by omega),
    signedAt_finer right le (by omega), signedAt_exactSum_exponent, Int.add_mul]

/-- A sum that exists is less than a bound on every grid that is fine enough for its terms. -/
theorem add_ok {left right sum : Decimal} {exponent : Int} (added : left.add right = .ok sum)
    (atLeft : exponent ≤ left.exponent) (atRight : exponent ≤ right.exponent) :
    exponent ≤ sum.exponent ∧
      sum.signedAt exponent = left.signedAt exponent + right.signedAt exponent ∧
        (sum.signedAt exponent).natAbs < 10 ^ (maxExponent + 1 - exponent).toNat := by
  unfold add at added
  dsimp only at added
  split at added
  · cases added
  split at added
  · cases added
  case _ fits =>
    cases added
    have above : exponent ≤ (exactSum left right).exponent := by
      change exponent ≤ min left.exponent right.exponent
      omega
    refine ⟨above, signedAt_exactSum left right atLeft atRight, ?_⟩
    generalize exactSum left right = sum at fits above
    rw [natAbs_signedAt]
    by_cases zero : sum.coefficient = 0
    · rw [zero, Nat.zero_mul]
      exact Nat.pow_pos (by decide)
    · have within : sum.adjusted ≤ maxExponent := by
        simp only [isZero, beq_eq_false_iff_ne.mpr zero, Bool.not_false, Bool.true_and,
          decide_eq_true_eq] at fits
        omega
      unfold adjusted at within
      calc sum.coefficient * 10 ^ (sum.exponent - exponent).toNat
          < 10 ^ digitCount sum.coefficient * 10 ^ (sum.exponent - exponent).toNat :=
            Nat.mul_lt_mul_of_pos_right (lt_pow_digitCount _) (Nat.pow_pos (by decide))
        _ = 10 ^ (digitCount sum.coefficient + (sum.exponent - exponent).toNat) :=
            (Nat.pow_add ..).symm
        _ ≤ 10 ^ (maxExponent + 1 - exponent).toNat :=
            Nat.pow_le_pow_right (by decide) (by omega)

end Onepass.Decimal
