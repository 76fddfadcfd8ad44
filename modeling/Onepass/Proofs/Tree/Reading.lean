import Onepass.Proofs.Fuel
import Onepass.Proofs.Tree.Basic

/-! # Reading and evaluating side by side

An action that reads tokens from one place to another is compared with the evaluation of a tree, which
does not know the cursor. Both start on the same machine, except for the cursor. They do what the other
does if both succeed with related results and the reader has arrived, or both fail for the same reason,
or neither ever ends; and apart from the cursor they leave the same machine.

The actions that read take two measures: the fuel that is left for what is nested, and the rounds that
are left for the repetition they are in. So a repetition reads on with the same fuel after every round.
-/

set_option autoImplicit false

namespace Onepass

/-! ## Actions that do not read -/

namespace Coupling

/-- The first execution stands at the place, the second one anywhere. -/
def displaced (place : Nat) : Coupling where
  positions := fun _ _ => True
  machines := fun first second => first = { second with cursor := place }
  lenient := False

theorem displaced_stores (place : Nat) : (displaced place).Stores where
  same := by
    rintro _ machine rfl
    exact ⟨rfl, rfl, rfl, rfl, rfl⟩
  stored := by
    rintro _ machine rfl heap
    rfl

end Coupling

namespace Exec

variable {α β γ δ : Type} {results : α → β → Prop} {others : γ → δ → Prop}

/-- Reading up to a place ended like an evaluation without a cursor. -/
inductive Mirrors (results : α → β → Prop) (last : Nat) : Outcome α → Outcome β → Prop
  | succeeded {value : α} {twin : β} (same : results value twin) (final : Machine) :
      Mirrors results last (.ok value { final with cursor := last }) (.ok twin final)
  | failed {failure twin : Failure} (alike : Failure.Alike (fun _ _ => True) failure twin)
      (final : Machine) (place : Nat) :
      Mirrors results last (.error failure { final with cursor := place }) (.error twin final)

theorem mirrors_of_outcomes {place : Nat} {outcome : Outcome α} {twin : Outcome β}
    (outcomes : (Coupling.displaced place).Outcomes results outcome twin) :
    Mirrors results place outcome twin := by
  cases outcomes with
  | succeeded same related => cases related; exact .succeeded same _
  | failed alike related => cases related; exact .failed alike _ place
  | early allowed => exact allowed.elim

theorem Mirrors.completed {last : Nat} {outcome : Outcome α} {twin : Outcome β}
    (mirrors : Mirrors results last outcome twin) :
    Option.Rel (Mirrors results last) (completed outcome) (completed twin) := by
  cases mirrors with
  | succeeded same final => exact .some (.succeeded same final)
  | failed alike final place =>
      cases alike with
      | diagnostic cause near => exact .some (.failed (.diagnostic cause near) final place)
      | progression fault => exact .some (.failed (.progression fault) final place)
      | limit limit => exact .some (.failed (.limit limit) final place)
      | endless => exact .some (.failed .endless final place)
      | exhausted => exact .none

/-! ## Reading -/

/-- With enough fuel and enough rounds the action always ends with the given outcome or, if none is
given, never ends. -/
def Stabilises (action : Nat → Nat → Exec α) (machine : Machine) (outcome : Option (Outcome α)) : Prop :=
  ∃ enough, ∀ fuel rounds, enough ≤ fuel → enough ≤ rounds →
    completed (action fuel rounds machine) = outcome

/-- The action, which reads from the first place to the last, does what the evaluation does. -/
def Reads (results : α → β → Prop) (first last : Nat) (action : Nat → Nat → Exec α)
    (evaluation : Nat → Exec β) : Prop :=
  ∀ machine, ∃ outcome twin, Stabilises action { machine with cursor := first } outcome ∧
    Settles evaluation machine twin ∧ Option.Rel (Mirrors results last) outcome twin

namespace Reads

variable {first middle last : Nat} {action : Nat → Nat → Exec α} {evaluation : Nat → Exec β}

theorem bind {next : Nat → Nat → α → Exec γ} {following : Nat → β → Exec δ}
    (begun : Reads results first middle action evaluation)
    (rest : ∀ value twin, results value twin →
      Reads others middle last (fun fuel rounds => next fuel rounds value)
        (fun fuel => following fuel twin)) :
    Reads others first last (fun fuel rounds => action fuel rounds >>= next fuel rounds)
      (fun fuel => evaluation fuel >>= following fuel) := by
  intro machine
  obtain ⟨_, _, ⟨enough, stable⟩, settles, related⟩ := begun machine
  cases related with
  | none =>
      refine ⟨none, none, ⟨enough, ?_⟩, settles.bind_endless, .none⟩
      intro fuel rounds fuelled repeated
      rw [completed_bind, stable fuel rounds fuelled repeated]
      rfl
  | some mirrors =>
      cases mirrors with
      | succeeded same final =>
          obtain ⟨outcome, twin, ⟨plenty, goesOn⟩, settlesLater, related⟩ := rest _ _ same final
          refine ⟨outcome, twin, ⟨max enough plenty, ?_⟩, settles.bind_ok settlesLater, related⟩
          intro fuel rounds fuelled repeated
          rw [completed_bind, stable fuel rounds (by omega) (by omega)]
          exact goesOn fuel rounds (by omega) (by omega)
      | failed alike final place =>
          refine ⟨_, _, ⟨enough, ?_⟩, settles.bind_error, .some (.failed alike final place)⟩
          intro fuel rounds fuelled repeated
          rw [completed_bind, stable fuel rounds fuelled repeated]
          rfl

/-- Fewer rounds for what remains make no difference. -/
theorem shift (reads : Reads results first last (fun fuel rounds => action fuel (rounds + 1)) evaluation) :
    Reads results first last action evaluation := by
  intro machine
  obtain ⟨outcome, twin, ⟨enough, stable⟩, settled⟩ := reads machine
  refine ⟨outcome, twin, ⟨enough + 1, ?_⟩, settled⟩
  intro fuel rounds fuelled repeated
  obtain ⟨rest, rfl⟩ : ∃ rest, rounds = rest + 1 := ⟨rounds - 1, by omega⟩
  exact stable fuel rest (by omega) (by omega)

/-- Nor does less fuel for what is nested. -/
theorem nested (reads : Reads results first last (fun fuel rounds => action (fuel + 1) rounds) evaluation) :
    Reads results first last action evaluation := by
  intro machine
  obtain ⟨outcome, twin, ⟨enough, stable⟩, settled⟩ := reads machine
  refine ⟨outcome, twin, ⟨enough + 1, ?_⟩, settled⟩
  intro fuel rounds fuelled repeated
  obtain ⟨rest, rfl⟩ : ∃ rest, fuel = rest + 1 := ⟨fuel - 1, by omega⟩
  exact stable rest rounds (by omega) (by omega)

/-- A repetition may have as many rounds as there is fuel. -/
theorem whole (reads : Reads results first last action evaluation) :
    Reads results first last (fun fuel _ => action fuel fuel) evaluation := by
  intro machine
  obtain ⟨outcome, twin, ⟨enough, stable⟩, settled⟩ := reads machine
  refine ⟨outcome, twin, ⟨enough, ?_⟩, settled⟩
  intro fuel _ fuelled _
  exact stable fuel fuel fuelled fuelled

/-- A step that only moves the cursor has no counterpart in the tree. -/
theorem step {reader : Exec γ} {found : γ} {next : Nat → Nat → γ → Exec α}
    (moves : ∀ machine, machine.cursor = first →
      reader machine = .ok found { machine with cursor := middle })
    (rest : Reads results middle last (fun fuel rounds => next fuel rounds found) evaluation) :
    Reads results first last (fun fuel rounds => reader >>= next fuel rounds) evaluation := by
  intro machine
  obtain ⟨outcome, twin, ⟨enough, stable⟩, settled⟩ := rest machine
  refine ⟨outcome, twin, ⟨enough, ?_⟩, settled⟩
  intro fuel rounds fuelled repeated
  change completed ((reader >>= next fuel rounds) { machine with cursor := first }) = outcome
  rw [bind_of_ok (moves { machine with cursor := first } rfl)]
  exact stable fuel rounds fuelled repeated

/-- Actions that do not read, and need no more than some fuel. -/
theorem still {action : Nat → Exec α}
    (pairs : ∀ fuel, (Coupling.displaced first).Pairs results (action fuel) (evaluation fuel))
    (ends : ∀ machine, ∃ outcome, Settles action machine outcome)
    (settles : ∀ machine, ∃ outcome, Settles evaluation machine outcome) :
    Reads results first first (fun fuel _ => action fuel) evaluation := by
  intro machine
  obtain ⟨outcome, enough, ended⟩ := ends { machine with cursor := first }
  obtain ⟨twin, plenty, settled⟩ := settles machine
  have apart : (Coupling.displaced first).machines { machine with cursor := first } machine := rfl
  have related := (mirrors_of_outcomes (pairs (max enough plenty) apart)).completed
  rw [ended _ (by omega), settled _ (by omega)] at related
  exact ⟨outcome, twin, ⟨enough, fun fuel _ le _ => ended fuel le⟩, ⟨plenty, settled⟩, related⟩

/-- Actions that do not read and need no fuel. -/
theorem steady {action : Exec α} {twin : Exec β}
    (pairs : (Coupling.displaced first).Pairs results action twin) :
    Reads results first first (fun _ _ => action) (fun _ => twin) :=
  still (fun _ => pairs) (fun _ => ⟨_, 0, fun _ _ => rfl⟩) (fun _ => ⟨_, 0, fun _ _ => rfl⟩)

theorem pure {value : α} {twin : β} (same : results value twin) :
    Reads results first first (fun _ _ => Pure.pure value) (fun _ => Pure.pure twin) :=
  steady (.pure same)

/-! ## Reading tokens -/

section

variable {script : Script}

theorem current {next : Nat → Nat → Token → Exec α}
    (rest : Reads results first last (fun fuel rounds => next fuel rounds (script.tokenAt first))
      evaluation) :
    Reads results first last (fun fuel rounds => Exec.current script >>= next fuel rounds) evaluation := by
  apply rest.step
  rintro machine rfl
  rfl

theorem currentKind {next : Nat → Nat → Kind → Exec α}
    (rest : Reads results first last (fun fuel rounds => next fuel rounds (script.kindAt first))
      evaluation) :
    Reads results first last (fun fuel rounds => Exec.currentKind script >>= next fuel rounds)
      evaluation := by
  apply rest.step
  rintro machine rfl
  rfl

theorem followingKind {next : Nat → Nat → Kind → Exec α}
    (rest : Reads results first last (fun fuel rounds => next fuel rounds (script.kindAt (first + 1)))
      evaluation) :
    Reads results first last (fun fuel rounds => Exec.followingKind script >>= next fuel rounds)
      evaluation := by
  apply rest.step
  rintro machine rfl
  rfl

theorem advance (proper : script.kindAt first ≠ .endOfInput) {next : Nat → Nat → Token → Exec α}
    (rest : Reads results (first + 1) last
      (fun fuel rounds => next fuel rounds (script.tokenAt first)) evaluation) :
    Reads results first last (fun fuel rounds => Exec.advance script >>= next fuel rounds)
      evaluation := by
  apply rest.step
  rintro machine rfl
  exact advance_eq proper

theorem expectName (known : script.kindAt first = .identifier) {next : Nat → Nat → Token → Exec α}
    (rest : Reads results (first + 1) last
      (fun fuel rounds => next fuel rounds (script.tokenAt first)) evaluation) :
    Reads results first last (fun fuel rounds => Exec.expect script .identifier >>= next fuel rounds)
      evaluation := by
  apply rest.step
  rintro machine rfl
  exact expect_eq known (by simp)

theorem expectSymbol {mark : Symbol} (known : script.kindAt first = .symbol mark)
    {next : Nat → Nat → Unit → Exec α}
    (rest : Reads results (first + 1) last (fun fuel rounds => next fuel rounds ()) evaluation) :
    Reads results first last (fun fuel rounds => Exec.expectSymbol script mark >>= next fuel rounds)
      evaluation := by
  apply rest.step
  rintro machine rfl
  exact bind_of_ok (expect_eq known (by simp)) _

theorem accept {mark : Symbol} (known : script.kindAt first = .symbol mark)
    {next : Nat → Nat → Bool → Exec α}
    (rest : Reads results (first + 1) last (fun fuel rounds => next fuel rounds true) evaluation) :
    Reads results first last (fun fuel rounds => Exec.accept script (.symbol mark) >>= next fuel rounds)
      evaluation := by
  apply rest.step
  rintro machine rfl
  exact accept_of_there known (by simp)

theorem decline {mark : Symbol} (other : script.kindAt first ≠ .symbol mark)
    {next : Nat → Nat → Bool → Exec α}
    (rest : Reads results first last (fun fuel rounds => next fuel rounds false) evaluation) :
    Reads results first last (fun fuel rounds => Exec.accept script (.symbol mark) >>= next fuel rounds)
      evaluation := by
  apply rest.step
  rintro machine rfl
  exact accept_of_absent other

end

end Reads

/-- Both give the same value, with which both go on. -/
theorem Reads.then {first middle last : Nat} {action : Nat → Nat → Exec α} {evaluation : Nat → Exec α}
    {next : Nat → Nat → α → Exec γ} {following : Nat → α → Exec δ}
    (begun : Reads Eq first middle action evaluation)
    (rest : ∀ value, Reads others middle last (fun fuel rounds => next fuel rounds value)
      (fun fuel => following fuel value)) :
    Reads others first last (fun fuel rounds => action fuel rounds >>= next fuel rounds)
      (fun fuel => evaluation fuel >>= following fuel) := by
  apply begun.bind
  rintro value _ rfl
  exact rest value

end Exec

end Onepass
