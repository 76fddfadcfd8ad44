import Onepass.Proofs.Discipline.Statement

/-! # Watching an execution

A watch is a condition on statements that are about to be executed, wherever they stand: outside all
blocks, in blocks and loops, and in the bodies of functions at any depth of calls. That it holds
throughout an execution is said without a record of what the execution does: the outcome stays the
same, whatever is done instead of a statement for which the watch fails.
-/

set_option autoImplicit false

namespace Onepass

/-- A condition on the statement that a machine is about to execute, which may refer to the evaluator
of the parts of the statement and to the fuel for its repetitions. -/
abbrev Watch := Evaluator → Nat → Machine → Prop

namespace Exec

variable (script : Script) (verbosity : Nat)

open Classical in
/-- The evaluator that does something else instead of every statement for which a watch fails. -/
noncomputable def watched (watch : Watch) (instead : Exec Signal) : Nat → Evaluator
  | 0 => ⟨throw .exhausted, throw .exhausted⟩
  | fuel + 1 =>
    let evaluator := watched watch instead fuel
    { expression := disjunction script evaluator (call script evaluator fuel) fuel
      statement := fun machine =>
        if watch evaluator fuel machine then dispatch script verbosity evaluator fuel machine
        else instead machine }

/-- The watch holds for every statement that the execution of the script comes to. -/
def Throughout (fuel : Nat) (watch : Watch) : Prop :=
  ∀ instead, program script (watched script verbosity watch instead fuel) fuel .initial =
    program script (evaluator script verbosity fuel) fuel .initial

variable {watch : Watch} {instead : Exec Signal} {fuel : Nat} {machine : Machine}

theorem watched_statement_of_holds
    (holds : watch (watched script verbosity watch instead fuel) fuel machine) :
    (watched script verbosity watch instead (fuel + 1)).statement machine =
      dispatch script verbosity (watched script verbosity watch instead fuel) fuel machine :=
  if_pos holds

theorem watched_statement_of_fails
    (fails : ¬ watch (watched script verbosity watch instead fuel) fuel machine) :
    (watched script verbosity watch instead (fuel + 1)).statement machine = instead machine :=
  if_neg fails

/-- A watch that never fails changes nothing. -/
theorem watched_of_always (always : ∀ evaluator fuel machine, watch evaluator fuel machine)
    (fuel : Nat) : watched script verbosity watch instead fuel = evaluator script verbosity fuel := by
  induction fuel with
  | zero => rfl
  | succ fuel ih =>
      have statements : (watched script verbosity watch instead (fuel + 1)).statement =
          (evaluator script verbosity (fuel + 1)).statement := by
        funext machine
        rw [watched_statement_of_holds script verbosity (always _ _ _), ih]
        rfl
      have expressions : (watched script verbosity watch instead (fuel + 1)).expression =
          (evaluator script verbosity (fuel + 1)).expression := by
        rw [watched, ih]
        rfl
      have built : Evaluator.mk _ _ = Evaluator.mk _ _ :=
        congr (congrArg Evaluator.mk expressions) statements
      exact built

theorem throughout_of_always (always : ∀ evaluator fuel machine, watch evaluator fuel machine)
    (fuel : Nat) : Throughout script verbosity fuel watch :=
  fun instead => by rw [watched_of_always script verbosity always]

/-- Giving up where the watch fails respects the relations of every discipline. -/
theorem watched_keeps {steady growing : Machine → Machine → Prop}
    (discipline : Discipline steady growing) (watch : Watch) (alarm : Failure) (fuel : Nat) :
    (watched script verbosity watch (throw alarm) fuel).Keeps steady growing := by
  induction fuel with
  | zero => exact ⟨discipline.throw _, discipline.grows (discipline.throw _)⟩
  | succ fuel ih =>
      refine ⟨discipline.disjunction script ih (discipline.call script ih fuel) fuel,
        fun machine => ?_⟩
      by_cases holds : watch (watched script verbosity watch (throw alarm) fuel) fuel machine
      · rw [watched_statement_of_holds script verbosity holds]
        exact discipline.dispatch script ih verbosity fuel machine
      · rw [watched_statement_of_fails script verbosity holds]
        exact discipline.grows (discipline.throw alarm) machine

/-- Some failure is not the one that an outcome ends with. -/
theorem exists_other_failure {α : Type} (outcome : EStateM.Result Failure Machine α) :
    ∃ alarm, ∀ final, outcome ≠ .error alarm final := by
  cases outcome with
  | ok result final => exact ⟨.exhausted, nofun⟩
  | error failure final =>
      by_cases same : failure = .exhausted
      · exact ⟨.endless, by simp [same]⟩
      · exact ⟨.exhausted, by simp [same]⟩

end Exec

end Onepass
