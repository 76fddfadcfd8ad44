import Onepass.Proofs.Lockstep.Statement

/-! # Enough fuel

More fuel changes no outcome but that of an execution which ran out of it. So a construct that is given
more and more fuel settles: from some fuel on it always ends alike, or it never ends at all.
-/

set_option autoImplicit false

namespace Onepass

/-- Two executions of the same from the same machine, the first with less fuel. -/
def Coupling.fuelled : Coupling where
  positions := Eq
  machines := Eq
  lenient := True

namespace Exec

variable {α β : Type}

/-- What an action ends with: a result or a failure, and the machine. -/
abbrev Outcome (α : Type) := EStateM.Result Failure Machine α

theorem fuelled_laws (script : Script) : Coupling.fuelled.Laws script script :=
  .of_eq (.refl script)

theorem fuelled_evaluators (script : Script) (verbosity : Nat) {fuel more : Nat} (le : fuel ≤ more) :
    Coupling.fuelled.Evaluators (evaluator script verbosity fuel) (evaluator script verbosity more) :=
  (fuelled_laws script).evaluators (congrArg (observed script verbosity)) (.of_le trivial le)

/-! ## Completed outcomes -/

/-- The outcome, unless the fuel ran out. -/
def completed : Outcome α → Option (Outcome α)
  | .error .exhausted _ => none
  | outcome => some outcome

theorem completed_error {failure : Failure} (ended : failure ≠ .exhausted) (final : Machine) :
    completed (.error failure final : Outcome α) = some (.error failure final) := by
  cases failure <;> first | rfl | exact absurd rfl ended

theorem eq_of_completed {outcome same : Outcome α} (ended : completed outcome = some same) :
    outcome = same := by
  unfold completed at ended
  split at ended
  · cases ended
  · exact Option.some.inj ended

theorem completed_of_completed {outcome same : Outcome α} (ended : completed outcome = some same) :
    completed same = some same := by
  obtain rfl := eq_of_completed ended
  exact ended

/-- With more fuel, what is completed stays as it is. -/
theorem completed_of_fuelled {outcome more same : Outcome α}
    (outcomes : Coupling.fuelled.Outcomes Eq outcome more) (ended : completed outcome = some same) :
    completed more = some same := by
  cases outcomes with
  | succeeded equal related => cases equal; cases related; exact ended
  | failed alike related => cases alike.eq; cases related; exact ended
  | early => cases ended

/-- What follows an action that succeeded. -/
def continued (next : α → Machine → Option (Outcome β)) : Option (Outcome α) → Option (Outcome β)
  | some (.ok value middle) => next value middle
  | some (.error failure middle) => some (.error failure middle)
  | none => none

theorem completed_bind (action : Exec α) (next : α → Exec β) (machine : Machine) :
    completed ((action >>= next) machine) =
      continued (fun value middle => completed (next value middle)) (completed (action machine)) := by
  cases ran : action machine with
  | ok value middle =>
      rw [bind_of_ok ran]
      rfl
  | error failure middle =>
      rw [bind_of_error ran]
      cases failure <;> rfl

/-! ## Settling -/

/-- With enough fuel the action always ends with the given outcome or, if none is given, never
ends. -/
def Settles (action : Nat → Exec α) (machine : Machine) (outcome : Option (Outcome α)) : Prop :=
  ∃ enough, ∀ fuel, enough ≤ fuel → completed (action fuel machine) = outcome

namespace Settles

variable {action : Nat → Exec α} {next : Nat → α → Exec β} {machine middle : Machine}
variable {outcome : Option (Outcome α)} {value : α} {failure : Failure}

theorem unique {other : Option (Outcome α)} (settles : Settles action machine outcome)
    (same : Settles action machine other) : outcome = other := by
  obtain ⟨enough, holds⟩ := settles
  obtain ⟨plenty, agrees⟩ := same
  rw [← holds (max enough plenty) (by omega), agrees (max enough plenty) (by omega)]

/-- With some fuel the action ends with the outcome. -/
theorem exists_eq {same : Outcome α} (settles : Settles action machine (some same)) :
    ∃ fuel, action fuel machine = same := by
  obtain ⟨enough, holds⟩ := settles
  exact ⟨enough, eq_of_completed (holds enough (Nat.le_refl _))⟩

theorem always {action : Exec α} {outcome : Outcome α}
    (ran : completed (action machine) = some outcome) :
    Settles (fun _ => action) machine (some outcome) :=
  ⟨0, fun _ _ => ran⟩

/-- Less fuel for a part makes no difference. -/
theorem shift (settles : Settles (fun fuel => action (fuel + 1)) machine outcome) :
    Settles action machine outcome := by
  obtain ⟨enough, holds⟩ := settles
  apply Exists.intro (enough + 1)
  intro fuel le
  obtain ⟨rest, rfl⟩ : ∃ rest, fuel = rest + 1 := ⟨fuel - 1, by omega⟩
  exact holds rest (by omega)

theorem later (settles : Settles action machine outcome) :
    Settles (fun fuel => action (fuel + 1)) machine outcome := by
  obtain ⟨enough, holds⟩ := settles
  exact ⟨enough, fun fuel le => holds (fuel + 1) (by omega)⟩

theorem bind_ok {outcome : Option (Outcome β)}
    (first : Settles action machine (some (.ok value middle)))
    (rest : Settles (fun fuel => next fuel value) middle outcome) :
    Settles (fun fuel => action fuel >>= next fuel) machine outcome := by
  obtain ⟨enough, holds⟩ := first
  obtain ⟨plenty, follows⟩ := rest
  apply Exists.intro (max enough plenty)
  intro fuel le
  rw [completed_bind, holds fuel (by omega)]
  exact follows fuel (by omega)

theorem bind_error (first : Settles action machine (some (.error failure middle))) :
    Settles (fun fuel => action fuel >>= next fuel) machine (some (.error failure middle)) := by
  obtain ⟨enough, holds⟩ := first
  apply Exists.intro enough
  intro fuel le
  rw [completed_bind, holds fuel le]
  rfl

theorem bind_endless (first : Settles action machine none) :
    Settles (fun fuel => action fuel >>= next fuel) machine none := by
  obtain ⟨enough, holds⟩ := first
  apply Exists.intro enough
  intro fuel le
  rw [completed_bind, holds fuel le]
  rfl

end Settles

/-- A construct for which more fuel changes no completed outcome settles. -/
theorem settles_of_fuelled {action : Nat → Exec α} (machine : Machine)
    (fuelled : ∀ {fuel more}, fuel ≤ more →
      Coupling.fuelled.Pairs Eq (action fuel) (action more)) :
    ∃ outcome, Settles action machine outcome := by
  by_cases ends : ∃ enough outcome, completed (action enough machine) = some outcome
  · obtain ⟨enough, outcome, ended⟩ := ends
    apply Exists.intro (some outcome)
    exact ⟨enough, fun fuel le => completed_of_fuelled (fuelled le rfl) ended⟩
  · apply Exists.intro none
    apply Exists.intro 0
    intro fuel _
    cases ran : completed (action fuel machine) with
    | none => rfl
    | some outcome => exact absurd ⟨fuel, outcome, ran⟩ ends

end Exec

end Onepass
