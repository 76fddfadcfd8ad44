import Onepass.Execution.Evaluator
import Onepass.Proofs.Decimal.Grid
import Onepass.Proofs.Outcome

/-! # Loops over fixed values are finite

The elements of an array and the characters of a text are finitely many from the beginning. The numbers
of a progression are finitely many because they move by the same distance each time, on a grid as fine
as the first number and the step need, and a number whose leading digit lies beyond the largest exponent
does not exist. How far the bound is plays no role, nor does the scale of the numbers: a sum that would
need more digits than a number can have is not formed, and that ends the loop too.
-/

set_option autoImplicit false

namespace Onepass

namespace Iteration

/-- One iteration is what remains of another after its next value. -/
def Follows (rest iteration : Iteration) : Prop :=
  ∃ value, iteration.next? = .ok (some (value, rest))

/-- The iteration gives finitely many values. -/
def Finite (iteration : Iteration) : Prop :=
  Acc Follows iteration

theorem finite_listed (values : List Value) : (listed values).Finite := by
  induction values with
  | nil =>
      constructor
      rintro rest ⟨value, next⟩
      cases next
  | cons first values ih =>
      constructor
      rintro rest ⟨value, next⟩
      cases next
      exact ih

/-- The value that comes next, and what remains is the same progression after it. -/
theorem next_counted {progression : Decimal.Progression} {value : Value} {rest : Iteration}
    (next : (counted progression).next? = .ok (some (value, rest))) :
    ∃ number, progression.successor = .ok number ∧
      rest = counted { progression with last := some number } := by
  unfold next? Decimal.Progression.next? at next
  dsimp only at next
  cases found : progression.successor with
  | error refusal => rw [found] at next; cases next
  | ok number =>
      rw [found] at next
      by_cases reached : progression.reaches number = true
      · simp only [bind, Except.bind, reached, if_true] at next
        cases next
        exact ⟨number, rfl, rfl⟩
      · simp only [bind, Except.bind, reached] at next
        cases next

/-- How far a number on the grid is from the limit in the direction of the step. -/
def gap (limit step value : Int) : Nat :=
  (limit - if 0 < step then value else -value).toNat

theorem gap_lt {limit step value : Int} (moves : step ≠ 0) (within : (value + step).natAbs < limit) :
    gap limit step (value + step) < gap limit step value := by
  unfold gap
  split <;> omega

/-- A progression that has given a number comes closer to the limit with each further one. -/
theorem finite_after (first bound step : Decimal) (moves : step.isZero = false) {exponent : Int}
    (fine : exponent ≤ step.exponent) {last : Decimal} (above : exponent ≤ last.exponent) :
    (counted ⟨first, bound, step, some last⟩).Finite := by
  have distance : step.signedAt exponent ≠ 0 := by
    intro none
    have zero := Decimal.natAbs_signedAt step exponent
    rw [none, Int.natAbs_zero, eq_comm, Nat.mul_eq_zero] at zero
    rcases zero with zero | zero
    · simp [Decimal.isZero, zero] at moves
    · exact absurd zero (Nat.ne_of_gt (Nat.pow_pos (by decide)))
  generalize left : gap (10 ^ (Decimal.maxExponent + 1 - exponent).toNat) (step.signedAt exponent)
    (last.signedAt exponent) = remaining
  induction remaining using Nat.strongRecOn generalizing last with
  | ind remaining ih =>
      constructor
      rintro rest ⟨value, next⟩
      obtain ⟨number, added, rfl⟩ := next_counted next
      obtain ⟨onGrid, sum, small⟩ := Decimal.add_ok added above fine
      rw [sum] at small
      apply ih _ _ onGrid rfl
      rw [← left, sum]
      exact gap_lt distance (by exact_mod_cast small)

theorem finite_counted (first bound step : Decimal) (moves : step.isZero = false) :
    (counted (.start first bound step)).Finite := by
  constructor
  rintro rest ⟨value, next⟩
  obtain ⟨number, given, rfl⟩ := next_counted next
  exact finite_after first bound step moves
    (Int.min_le_left step.exponent number.exponent) (Int.min_le_right _ _)

end Iteration

namespace Exec

theorem iterationOver_finite {value : Value} {position : Position} {machine final : Machine}
    {iteration : Iteration} (read : iterationOver value position machine = .ok iteration final) :
    iteration.Finite := by
  unfold iterationOver at read
  split at read
  · cases read
    exact Iteration.finite_listed _
  · cases read
    exact Iteration.finite_listed _
  · exact absurd read bind_refuse_ne_ok

/-- Whatever the header of a loop gives is finite: a step of zero is refused. -/
theorem iteration_finite {script : Script} {expression : Exec Value} {machine final : Machine}
    {iteration : Iteration} (read : Exec.iteration script expression machine = .ok iteration final) :
    iteration.Finite := by
  obtain ⟨first, afterFirst, -, read⟩ := bind_ok (current_bind_ok read)
  obtain ⟨ranged, afterDots, -, read⟩ := bind_ok read
  cases ranged with
  | false => exact iterationOver_finite read
  | true =>
      obtain ⟨last, afterLast, -, read⟩ := bind_ok (current_bind_ok read)
      obtain ⟨⟨step, position⟩, afterStep, -, read⟩ := bind_ok read
      obtain ⟨lower, afterLower, -, read⟩ := bind_ok read
      obtain ⟨upper, afterUpper, -, read⟩ := bind_ok read
      obtain ⟨distance, afterDistance, -, read⟩ := bind_ok read
      obtain ⟨moves, read⟩ := guarded_ok read
      obtain ⟨rfl, -⟩ := pure_ok read
      exact Iteration.finite_counted lower upper distance (by simpa using moves)

end Exec

end Onepass
