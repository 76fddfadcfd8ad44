import Mathlib.Data.Rat.Floor
import Onepass.Execution.Iteration
import Onepass.Proofs.Decimal.Exact

/-! # Ranges are arithmetic progressions

A range gives its first number and then, again and again, the sum of the last number and the step, until
the bound is passed. A sum that is formed is not rounded, so after any number of steps the value is off by
exactly that many times the step, and the bound cuts the progression where division by the step says. A
sum that would need more than `exactDigits` digits is refused, and the range ends there.
-/

set_option autoImplicit false

namespace Onepass

/-! ## What an iteration gives -/

namespace Iteration

/-- The iteration gives these values one after the other, and the last iteration is what remains. -/
inductive Produces : Iteration → List Value → Iteration → Prop
  | nothing (iteration : Iteration) : Produces iteration [] iteration
  | next {iteration rest last : Iteration} {value : Value} {values : List Value}
      (first : iteration.next? = .ok (some (value, rest))) (others : Produces rest values last) :
      Produces iteration (value :: values) last

/-- The iteration gives these values and then is through. -/
def Yields (iteration : Iteration) (values : List Value) : Prop :=
  ∃ rest, iteration.Produces values rest ∧ rest.next? = .ok none

theorem Yields.unique {iteration : Iteration} {values others : List Value}
    (one : iteration.Yields values) (other : iteration.Yields others) : values = others := by
  obtain ⟨last, produced, through⟩ := one
  induction produced generalizing others with
  | nothing iteration =>
      obtain ⟨rest, produced, -⟩ := other
      cases produced with
      | nothing => rfl
      | next first => rw [through] at first; cases first
  | next first _ ih =>
      obtain ⟨rest, produced, ended⟩ := other
      cases produced with
      | nothing => rw [first] at ended; cases ended
      | next another others =>
          rw [first] at another
          cases another
          exact congrArg _ (ih ⟨rest, others, ended⟩ through)

end Iteration

/-! ## Steps without rounding -/

namespace Decimal

/-- The number that is reached by so many steps. -/
def stepped (first step : Decimal) : Nat → Decimal
  | 0 => first
  | count + 1 => exactSum (stepped first step count) step

theorem value_stepped (first step : Decimal) (count : Nat) :
    (first.stepped step count).value = first.value + count * step.value := by
  induction count with
  | zero => rw [stepped, Nat.cast_zero, zero_mul, add_zero]
  | succ count ih =>
      rw [stepped, value_exactSum, ih]
      push_cast
      ring

/-- All numbers but the first have the smaller one of the two exponents. -/
theorem exponent_stepped (first step : Decimal) (count : Nat) :
    (first.stepped step (count + 1)).exponent = min first.exponent step.exponent := by
  induction count with
  | zero => exact (exactSum_denotes first step).exponent_eq
  | succ count ih =>
      rw [stepped, (exactSum_denotes _ step).exponent_eq, ih, min_assoc, min_self]

/-- How many numbers there are from the first one up to the bound. -/
def termCount (first bound step : Decimal) : Nat :=
  (⌊(bound.value - first.value) / step.value⌋ + 1).toNat

theorem lt_termCount {first bound step : Decimal} {count : Nat} :
    count < termCount first bound step ↔
      (count : ℚ) ≤ (bound.value - first.value) / step.value := by
  rw [termCount, Int.lt_toNat, Int.lt_add_one_iff, Int.le_floor, Int.cast_natCast]

/-- There are none exactly if the bound lies on the other side of the first number than the step. -/
theorem termCount_eq_zero {first bound step : Decimal} :
    termCount first bound step = 0 ↔ (bound.value - first.value) * step.value < 0 := by
  have none : termCount first bound step = 0 ↔ (bound.value - first.value) / step.value < 0 := by
    rw [← not_le, ← Nat.cast_zero (R := ℚ), ← lt_termCount, Nat.pos_iff_ne_zero, not_ne_iff]
  rw [none, div_neg_iff, mul_neg_iff]

theorem termCount_of_onGrid {first bound step : Decimal} (moves : step.value ≠ 0) {count : Nat}
    (onGrid : bound.value = first.value + count * step.value) :
    termCount first bound step = count + 1 := by
  rw [termCount, onGrid, add_sub_cancel_left, mul_div_cancel_right₀ _ moves, Int.floor_natCast]
  rfl

namespace Progression

theorem reaches_iff {progression : Progression} (moves : progression.step.value ≠ 0)
    (number : Decimal) :
    progression.reaches number = true ↔
      0 ≤ (progression.bound.value - number.value) / progression.step.value := by
  have zero : (ofNat 0).value = 0 := value_eq_zero.2 rfl
  unfold reaches
  rw [order_eq_compare, order_eq_compare, zero]
  -- Dividing by the step turns both directions into one, because it turns the comparison with it.
  rcases lt_or_gt_of_ne moves with below | above
  · have down : (compare progression.step.value 0 == .gt) = false := by
      simpa [compare_gt_iff_gt] using below.le
    rw [down, if_neg Bool.false_ne_true, Std.LawfulLECmp.isGE_iff_ge, le_div_iff_of_neg below,
      zero_mul, sub_nonpos]
  · have up : (compare progression.step.value 0 == .gt) = true := by
      simpa [compare_gt_iff_gt] using above
    rw [up, if_pos rfl, Std.LawfulLECmp.isLE_iff_le, le_div_iff₀ above, zero_mul, sub_nonneg]

/-- The progression when so many of its numbers were given. -/
def after (first bound step : Decimal) : Nat → Progression
  | 0 => .start first bound step
  | count + 1 => ⟨first, bound, step, some (first.stepped step count)⟩

variable {first bound step : Decimal}

theorem successor_after {count : Nat}
    (fits : 0 < count →
      Fits exactDigits (first.value + count * step.value) (min first.exponent step.exponent)) :
    (after first bound step count).successor = .ok (first.stepped step count) := by
  cases count with
  | zero => rfl
  | succ count =>
      have fits := fits count.succ_pos
      rw [← value_stepped, ← exponent_stepped first step count, stepped, value_exactSum,
        (exactSum_denotes _ step).exponent_eq] at fits
      exact add_of_fits fits

theorem reaches_after (moves : step.value ≠ 0) (count : Nat) :
    (after first bound step count).reaches (first.stepped step count) = true ↔
      count < termCount first bound step := by
  have same : (after first bound step count).reaches (first.stepped step count) =
      (start first bound step).reaches (first.stepped step count) := by
    cases count <;> rfl
  rw [same, reaches_iff moves, lt_termCount, value_stepped]
  change 0 ≤ (bound.value - (first.value + count * step.value)) / step.value ↔ _
  rw [← sub_sub, sub_div, mul_div_cancel_right₀ _ moves, sub_nonneg]

theorem next?_after (moves : step.value ≠ 0) {count : Nat}
    (fits : 0 < count →
      Fits exactDigits (first.value + count * step.value) (min first.exponent step.exponent)) :
    (after first bound step count).next? =
      .ok (if count < termCount first bound step then
        some (first.stepped step count, after first bound step (count + 1)) else none) := by
  have remaining : { after first bound step count with last := some (first.stepped step count) } =
      after first bound step (count + 1) := by
    cases count <;> rfl
  unfold next?
  rw [successor_after fits]
  simp only [bind, Except.bind, reaches_after moves, remaining]
  split <;> rfl

end Progression

end Decimal

/-! ## Ranges -/

namespace Iteration

open Decimal (termCount stepped Fits exactDigits)

variable {first bound step : Decimal}

/-- From any number on, the iteration gives those that are left. -/
theorem produces_after (moves : step.value ≠ 0)
    (fits : ∀ count : ℕ, 0 < count → count ≤ termCount first bound step →
      Fits exactDigits (first.value + count * step.value) (min first.exponent step.exponent))
    {given left : Nat} (all : given + left = termCount first bound step) :
    (counted (.after first bound step given)).Produces
      ((List.range' given left).map fun count => .number (first.stepped step count))
      (counted (.after first bound step (termCount first bound step))) := by
  induction left generalizing given with
  | zero =>
      rw [← all]
      exact .nothing _
  | succ left ih =>
      have next : (Decimal.Progression.after first bound step given).next? = _ :=
        Decimal.Progression.next?_after moves fun positive => fits given positive (by omega)
      rw [if_pos (by omega)] at next
      refine .next ?_ (ih (by omega))
      rw [next?, next]
      rfl

theorem counted_yields (moves : step.value ≠ 0)
    (fits : ∀ count : ℕ, 0 < count → count ≤ termCount first bound step →
      Fits exactDigits (first.value + count * step.value) (min first.exponent step.exponent)) :
    (counted (.start first bound step)).Yields
      ((List.range (termCount first bound step)).map fun count =>
        .number (first.stepped step count)) := by
  refine ⟨_, List.range_eq_range' ▸ produces_after moves fits (Nat.zero_add _), ?_⟩
  have through : (Decimal.Progression.after first bound step (termCount first bound step)).next? = _ :=
    Decimal.Progression.next?_after moves fun positive => fits _ positive le_rfl
  rw [if_neg (lt_irrefl _)] at through
  rw [next?, through]
  rfl

/-- A range with a step that is not zero gives exactly the numbers of an arithmetic progression, as many
as fit up to the bound, as long as no sum is out of range or has more than `exactDigits` digits. The first
number is the one that the range begins with, and the value of each is exact. There is no number if the
bound lies on the other side of the first one, and if the bound lies on the progression it is the value of
the last one. -/
theorem range_is_progression (moves : step.value ≠ 0)
    (fits : ∀ count : ℕ, 0 < count → count ≤ termCount first bound step →
      Fits exactDigits (first.value + count * step.value) (min first.exponent step.exponent)) :
    ∃ numbers : List Decimal,
      (∀ values, (counted (.start first bound step)).Yields values ↔ values = numbers.map .number) ∧
      numbers.length = (⌊(bound.value - first.value) / step.value⌋ + 1).toNat ∧
      (∀ (count : ℕ) (number : Decimal), numbers[count]? = some number →
        number.value = first.value + count * step.value ∧ (count = 0 → number = first) ∧
          (0 < count → number.exponent = min first.exponent step.exponent)) ∧
      (numbers = [] ↔ (bound.value - first.value) * step.value < 0) ∧
      ((∃ count : ℕ, bound.value = first.value + count * step.value) →
        numbers.head? = some first ∧
          ∃ last, numbers.getLast? = some last ∧ last.value = bound.value) := by
  have yields := counted_yields moves fits
  refine ⟨(List.range (termCount first bound step)).map (first.stepped step), ?_, ?_, ?_, ?_, ?_⟩
  · intro values
    rw [List.map_map]
    exact ⟨fun given => given.unique yields, fun same => same ▸ yields⟩
  · rw [List.length_map, List.length_range, termCount]
  · intro count number given
    rw [List.getElem?_map, Option.map_eq_some_iff] at given
    obtain ⟨index, found, rfl⟩ := given
    obtain ⟨within, rfl⟩ := List.getElem?_eq_some_iff.1 found
    rw [List.getElem_range]
    refine ⟨Decimal.value_stepped first step count, ?_, ?_⟩
    · rintro rfl
      rfl
    · intro positive
      obtain ⟨before, rfl⟩ := Nat.exists_eq_succ_of_ne_zero positive.ne'
      exact Decimal.exponent_stepped first step before
  · rw [List.map_eq_nil_iff, List.range_eq_nil, Decimal.termCount_eq_zero]
  · rintro ⟨count, onGrid⟩
    rw [Decimal.termCount_of_onGrid moves onGrid]
    refine ⟨?_, first.stepped step count, ?_, ?_⟩
    · rw [List.range_succ_eq_map]
      rfl
    · rw [List.range_succ, List.map_append]
      exact List.getLast?_concat
    · rw [Decimal.value_stepped, onGrid]

/-- From one down to minus two by steps of `1.50`. -/
theorem range_is_progression_downward :
    let bound : Decimal := ⟨true, 2, 0⟩
    let step : Decimal := ⟨true, 150, -2⟩
    ∃ numbers : List Decimal,
      (counted (.start .one bound step)).Yields (numbers.map .number) ∧ numbers.length = 3 ∧
        numbers.head? = some .one ∧ ∃ last, numbers.getLast? = some last ∧ last.value = -2 := by
  intro bound step
  have firstValue : Decimal.one.value = 1 := by norm_num [Decimal.value, Decimal.one, Decimal.ofNat]
  have boundValue : bound.value = -2 := by norm_num [bound, Decimal.value]
  have stepValue : step.value = -3 / 2 := by norm_num [step, Decimal.value]
  have moves : step.value ≠ 0 := by norm_num [stepValue]
  have onGrid : bound.value = Decimal.one.value + (2 : ℕ) * step.value := by
    norm_num [firstValue, boundValue, stepValue]
  have three : termCount .one bound step = 3 := Decimal.termCount_of_onGrid moves onGrid
  have fits : ∀ count : ℕ, 0 < count → count ≤ termCount .one bound step →
      Fits exactDigits (Decimal.one.value + count * step.value)
        (min Decimal.one.exponent step.exponent) := by
    intro count _ within
    have below : (count : ℚ) ≤ 3 := by exact_mod_cast three ▸ within
    have above : (0 : ℚ) ≤ count := Nat.cast_nonneg count
    have small : |Decimal.one.value + count * step.value| < 10 := by
      rw [firstValue, stepValue]
      exact abs_lt.2 (by constructor <;> linarith)
    refine ⟨⟨Decimal.lt_limit small, by decide, by decide⟩, small.trans_le ?_⟩
    exact (zpow_one 10).symm.trans_le (Decimal.ten_zpow_le.2 (by decide))
  obtain ⟨numbers, yields, length, -, -, ends⟩ := range_is_progression moves fits
  obtain ⟨head, last, final, value⟩ := ends ⟨2, onGrid⟩
  exact ⟨numbers, (yields _).2 rfl, length.trans three, head, last, final, value.trans boundValue⟩

/-- From one with the largest exponent up to two with it by steps of one tenth. All numbers of the
progression are in range, but the second one has more digits than a number can have, so that the range ends
without having passed the bound. -/
theorem range_of_largest_by_tenths :
    let largest : Decimal := ⟨false, 1, 999999999999999999⟩
    let bound : Decimal := ⟨false, 2, 999999999999999999⟩
    let tenth : Decimal := ⟨false, 1, -1⟩
    largest.IsFinite ∧ bound.IsFinite ∧ tenth.IsFinite ∧ tenth.value ≠ 0 ∧
      (∀ count : ℕ, 0 < count → count ≤ termCount largest bound tenth →
        Decimal.InRange exactDigits (largest.value + count * tenth.value)
          (min largest.exponent tenth.exponent)) ∧
      ¬ ∃ values, (counted (.start largest bound tenth)).Yields values := by
  intro largest bound tenth
  have largestValue : largest.value = 10 ^ Decimal.maxExponent := by
    simp [Decimal.value, largest, Decimal.maxExponent]
  have boundValue : bound.value = 2 * 10 ^ Decimal.maxExponent := by
    simp [Decimal.value, bound, Decimal.maxExponent]
  have tenthValue : tenth.value = 1 / 10 := by norm_num [Decimal.value, tenth]
  refine ⟨Decimal.isFinite_iff.2 (by decide +kernel), Decimal.isFinite_iff.2 (by decide +kernel),
    Decimal.isFinite_iff.2 (by decide +kernel), by norm_num [tenthValue], ?_, ?_⟩
  · intro count positive within
    have before : ((count - 1 : ℕ) : ℚ) ≤ (bound.value - largest.value) / tenth.value :=
      Decimal.lt_termCount.1 (by omega)
    have least : (1 : ℚ) ≤ 10 ^ Decimal.maxExponent :=
      (zpow_zero 10).symm.trans_le (Decimal.ten_zpow_le.2 (by decide))
    rw [Nat.cast_pred positive, boundValue, largestValue, tenthValue,
      le_div_iff₀ (by norm_num)] at before
    have above : (0 : ℚ) ≤ count := Nat.cast_nonneg count
    refine ⟨?_, by decide, by decide⟩
    rw [largestValue, tenthValue, Decimal.limit, Decimal.ten_zpow_add, zpow_one,
      abs_of_pos (by linarith)]
    linarith
  · have first : (Decimal.Progression.start largest bound tenth).next? =
        .ok (some (largest, ⟨largest, bound, tenth, some largest⟩)) := by decide +kernel
    have second : (Decimal.Progression.mk largest bound tenth (some largest)).next? =
        .error .tooLong := by decide +kernel
    rintro ⟨values, rest, produced, through⟩
    cases produced with
    | nothing => rw [next?, first] at through; cases through
    | next given others =>
        rw [next?, first] at given
        cases given
        cases others with
        | nothing => rw [next?, second] at through; cases through
        | next given _ => rw [next?, second] at given; cases given

end Iteration

end Onepass
