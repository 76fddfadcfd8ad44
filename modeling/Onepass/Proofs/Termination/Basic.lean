import Onepass.Proofs.Extent.Simple
import Onepass.Proofs.Fuel

/-! # Actions that come to an end

An action that is given enough fuel may come to an end, with a result or with a failure that is not
exhaustion. What makes whole executions end is that the cursor moves on while the same calls are active:
each part of a construct is read at a place further on, and the end of the script is never passed.
-/

set_option autoImplicit false

namespace Onepass

/-! ## Moving on -/

namespace Machine

variable {script : Script} {first middle last : Machine}

/-- From the first machine to the last, the cursor moved on or stayed, without passing the end of the
script, and the same calls are active. -/
structure Passed (script : Script) (first last : Machine) : Prop where
  frames : last.frames = first.frames
  within : script.Within first.cursor last.cursor

/-- From the first machine to the last, the cursor moved on. -/
structure Past (script : Script) (first last : Machine) : Prop extends Passed script first last where
  ahead : first.cursor < last.cursor

theorem Passed.refl (machine : Machine) : Passed script machine machine :=
  ⟨rfl, .refl _⟩

theorem Passed.trans (start : Passed script first middle) (rest : Passed script middle last) :
    Passed script first last :=
  ⟨rest.frames.trans start.frames, start.within.trans rest.within⟩

theorem Passed.past (start : Passed script first middle) (rest : Past script middle last) :
    Past script first last :=
  ⟨start.trans rest.toPassed, Nat.lt_of_le_of_lt start.within.onward rest.ahead⟩

theorem Past.passed (start : Past script first middle) (rest : Passed script middle last) :
    Past script first last :=
  ⟨start.toPassed.trans rest, Nat.lt_of_lt_of_le start.ahead rest.within.onward⟩

theorem Past.trans (start : Past script first middle) (rest : Past script middle last) :
    Past script first last :=
  start.passed rest.toPassed

theorem Passed.of_eq (cursor : last.cursor = first.cursor) (frames : last.frames = first.frames) :
    Passed script first last := by
  apply Passed.mk frames
  rw [cursor]
  exact .refl _

theorem Past.token (proper : script.kindAt first.cursor ≠ .endOfInput) :
    Past script first { first with cursor := first.cursor + 1 } :=
  ⟨⟨rfl, .token proper⟩, Nat.lt_succ_self _⟩

/-- There are only so many places to move on to. -/
theorem Past.induction (script : Script) {motive : Machine → Prop}
    (step : ∀ machine, (∀ next, Past script machine next → motive next) → motive machine)
    (machine : Machine) : motive machine := by
  generalize left : script.size - machine.cursor = places
  induction places using Nat.strongRecOn generalizing machine with
  | ind places ih =>
      apply step
      intro next past
      have := past.within.size_le past.ahead
      have := past.ahead
      exact ih _ (by omega) next rfl

end Machine

namespace Exec

open Machine (Passed Past)

variable {α β : Type} {script : Script} {machine : Machine}

/-- With enough fuel the action comes to an end, which more fuel does not change; where it succeeds, the
result and the machine are as said. -/
def Ends (action : Nat → Exec α) (machine : Machine) (post : α → Machine → Prop) : Prop :=
  ∃ outcome, Settles action machine (some outcome) ∧
    ∀ result final, outcome = .ok result final → post result final

/-- The action comes to an end, and the cursor does not move back. -/
def Proceeds (script : Script) (action : Nat → Exec α) (machine : Machine) : Prop :=
  Ends action machine fun _ => Passed script machine

/-- The action comes to an end, and the cursor moves on. -/
def Advances (script : Script) (action : Nat → Exec α) (machine : Machine) : Prop :=
  Ends action machine fun _ => Past script machine

/-! ## Sequences -/

theorem ensuring_of_ok {tidy : Machine → Machine} {action : Exec α} {final : Machine} {result : α}
    (ran : action machine = .ok result final) :
    ensuring tidy action machine = .ok result (tidy final) := by
  unfold ensuring
  rw [ran]

theorem ensuring_of_error {tidy : Machine → Machine} {action : Exec α} {final : Machine}
    {failure : Failure} (ran : action machine = .error failure final) :
    ensuring tidy action machine = .error failure (tidy final) := by
  unfold ensuring
  rw [ran]

namespace Ends

variable {action : Nat → Exec α} {next : Nat → α → Exec β}
variable {between : α → Machine → Prop} {post : β → Machine → Prop}

theorem bind (begun : Ends action machine between)
    (rest : ∀ value middle, between value middle → Ends (fun fuel => next fuel value) middle post) :
    Ends (fun fuel => action fuel >>= next fuel) machine post := by
  obtain ⟨outcome, settles, holds⟩ := begun
  cases outcome with
  | ok value middle =>
      obtain ⟨last, follows, ends⟩ := rest value middle (holds value middle rfl)
      exact ⟨last, settles.bind_ok follows, ends⟩
  | error failure middle => exact ⟨_, settles.bind_error, nofun⟩

theorem weaken {wider : α → Machine → Prop} (ends : Ends action machine between)
    (implied : ∀ value final, between value final → wider value final) :
    Ends action machine wider := by
  obtain ⟨outcome, settles, holds⟩ := ends
  exact ⟨outcome, settles, fun value final same => implied value final (holds value final same)⟩

theorem shift (ends : Ends (fun fuel => action (fuel + 1)) machine between) :
    Ends action machine between := by
  obtain ⟨outcome, settles, holds⟩ := ends
  exact ⟨outcome, settles.shift, holds⟩

theorem later (ends : Ends action machine between) :
    Ends (fun fuel => action (fuel + 1)) machine between := by
  obtain ⟨outcome, settles, holds⟩ := ends
  exact ⟨outcome, settles.later, holds⟩

theorem of_ok {action : Exec α} {value : α} {final : Machine} (ran : action machine = .ok value final)
    (holds : between value final) : Ends (fun _ => action) machine between := by
  apply Exists.intro (.ok value final)
  apply And.intro (.always (by rw [ran]; rfl))
  intro result last same
  cases same
  exact holds

theorem throw {failure : Failure} (ended : failure ≠ .exhausted) :
    Ends (fun _ => (MonadExcept.throw failure : Exec α)) machine between :=
  ⟨.error failure machine, .always (completed_error ended machine), nofun⟩

theorem refuse (cause : Cause) (position : Position) :
    Ends (fun _ => (Exec.refuse cause position : Exec α)) machine between :=
  .throw nofun

theorem ite {condition : Prop} [Decidable condition] {other : Nat → Exec α}
    (positive : condition → Ends action machine between)
    (negative : ¬ condition → Ends other machine between) :
    Ends (fun fuel => if condition then action fuel else other fuel) machine between := by
  by_cases holds : condition
  · simp only [if_pos holds]
    exact positive holds
  · simp only [if_neg holds]
    exact negative holds

theorem ensuring {tidy : Machine → Machine} {tidied : α → Machine → Prop}
    (ends : Ends action machine between)
    (restored : ∀ value final, between value final → tidied value (tidy final)) :
    Ends (fun fuel => Exec.ensuring tidy (action fuel)) machine tidied := by
  obtain ⟨outcome, ⟨enough, settles⟩, holds⟩ := ends
  have ran (fuel : Nat) (le : enough ≤ fuel) : action fuel machine = outcome :=
    eq_of_completed (settles fuel le)
  cases outcome with
  | ok value final =>
      apply Exists.intro (.ok value (tidy final))
      constructor
      · apply Exists.intro enough
        intro fuel le
        exact congrArg completed (ensuring_of_ok (ran fuel le))
      · intro result last same
        cases same
        exact restored value final (holds value final rfl)
  | error failure final =>
      apply Exists.intro (.error failure (tidy final))
      constructor
      · apply Exists.intro enough
        intro fuel le
        have ended := completed_of_completed (settles fuel le)
        apply (congrArg completed (ensuring_of_error (ran fuel le))).trans
        cases failure <;> first | rfl | cases ended
      · nofun

end Ends

section

variable {action : Nat → Exec α} {next : Nat → α → Exec β}

theorem Advances.proceeds (advances : Advances script action machine) :
    Proceeds script action machine :=
  advances.weaken fun _ _ past => past.toPassed

/-- Seen from an earlier machine. -/
theorem Proceeds.since {origin : Machine} (proceeds : Proceeds script action machine)
    (passed : Passed script origin machine) : Ends action machine fun _ => Passed script origin :=
  proceeds.weaken fun _ _ further => passed.trans further

theorem Proceeds.sincePast {origin : Machine} (proceeds : Proceeds script action machine)
    (past : Past script origin machine) : Ends action machine fun _ => Past script origin :=
  proceeds.weaken fun _ _ further => past.passed further

theorem Proceeds.then (begun : Proceeds script action machine)
    (rest : ∀ value middle, Passed script machine middle →
      Proceeds script (fun fuel => next fuel value) middle) :
    Proceeds script (fun fuel => action fuel >>= next fuel) machine :=
  Ends.bind begun fun value middle passed => (rest value middle passed).since passed

theorem Advances.then (begun : Advances script action machine)
    (rest : ∀ value middle, Past script machine middle →
      Proceeds script (fun fuel => next fuel value) middle) :
    Advances script (fun fuel => action fuel >>= next fuel) machine :=
  Ends.bind begun fun value middle past => (rest value middle past).sincePast past

theorem Proceeds.thenAdvances (begun : Proceeds script action machine)
    (rest : ∀ value middle, Passed script machine middle →
      Advances script (fun fuel => next fuel value) middle) :
    Advances script (fun fuel => action fuel >>= next fuel) machine :=
  Ends.bind begun fun value middle passed =>
    (rest value middle passed).weaken fun _ _ further => passed.past further

end

theorem Proceeds.pure (value : α) : Proceeds script (fun _ => (Pure.pure value : Exec α)) machine :=
  .of_ok rfl (.refl machine)

theorem Proceeds.get : Proceeds script (fun _ => (MonadState.get : Exec Machine)) machine :=
  .of_ok rfl (.refl machine)

/-- A change of the machine that leaves the cursor and the active calls. -/
theorem Proceeds.changed {change : Machine → Machine}
    (cursor : (change machine).cursor = machine.cursor)
    (frames : (change machine).frames = machine.frames) :
    Proceeds script (fun _ => (modify change : Exec Unit)) machine :=
  .of_ok rfl (.of_eq cursor frames)

end Exec

end Onepass
