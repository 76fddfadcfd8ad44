import Onepass.Execution.Run
import Onepass.Proofs.Termination.Statement
import Onepass.Proofs.Typing.Binding
import Onepass.Proofs.Watch

/-! # Scripts without loops on a condition come to an end

Only a loop with a condition can go on for ever. In every other execution each part of a construct stands
further on in the script or runs inside one more call, and there are so many places and so many calls:
functions may call themselves and each other, but not deeper than the limit. On the way arrays keep
their lengths, so that loops over them are finite too.
-/

set_option autoImplicit false

namespace Onepass

/-- Arrays are made, and none that exists changes its length. -/
structure Heap.ArraysKept (first last : Heap) : Prop where
  size : first.size ≤ last.size
  length : ∀ address < first.size, (last.items address).size = (first.items address).size

/-- Two machines are the same, with no more active calls than are allowed. -/
def Coupling.bounded : Coupling where
  positions := Eq
  machines first second := first = second ∧ second.frames.length ≤ Exec.maxCallDepth
  lenient := False

namespace Exec

open Machine (Passed Past)

variable {script : Script} {verbosity : Nat}

/-! ## The evaluator -/

theorem advances_dispatch {evaluators : Nat → Evaluator} {machine : Machine}
    (finishes : Finishes script evaluators machine)
    (counted : script.kindAt machine.cursor ≠ .keyword .whileWord) :
    Advances script (fun fuel => dispatch script verbosity (evaluators fuel) fuel) machine := by
  have seen : Passed script machine (observed script verbosity machine) := .of_eq rfl rfl
  have performed := advances_perform (finishes.onward seen) rfl counted
    (script.tokenAt machine.cursor).position
  exact performed.weaken fun _ _ past => seen.past past

/-- With as many active calls, what begins further on is read first; and a call has one more. -/
theorem evaluator_advances (counted : ∀ place, script.kindAt place ≠ .keyword .whileWord)
    (machine : Machine) :
    Advances script (fun fuel => expression script verbosity fuel) machine ∧
      Advances script (fun fuel => statement script verbosity fuel) machine := by
  have finishes : Finishes script (evaluator script verbosity) machine :=
    { expression := fun next past => (evaluator_advances counted next).1
      statement := fun next past => (evaluator_advances counted next).2
      called := fun shallow next deeper => (evaluator_advances counted next).2 }
  constructor
  · apply Ends.shift
    exact advances_disjunction finishes fun next passed => advances_call (finishes.onward passed)
  · apply Ends.shift
    exact advances_dispatch finishes (counted _)
termination_by (maxCallDepth - machine.frames.length, script.size - machine.cursor)
decreasing_by
  · have := past.within.size_le past.ahead
    have := past.ahead
    rw [past.frames]
    exact Prod.Lex.right _ (by omega)
  · have := past.within.size_le past.ahead
    have := past.ahead
    rw [past.frames]
    exact Prod.Lex.right _ (by omega)
  · exact Prod.Lex.left _ _ (by omega)

theorem proceeds_program {evaluators : Nat → Evaluator} {machine : Machine}
    (statements : AdvancesFrom script (fun fuel => (evaluators fuel).statement) machine) :
    Proceeds script (fun fuel => program script (evaluators fuel) fuel) machine := by
  induction machine using Past.induction script generalizing evaluators with
  | step machine ih =>
      apply Ends.shift
      apply Ends.currentKind
      apply Ends.ite
      · intro _
        exact Proceeds.pure ()
      · intro _
        apply Advances.proceeds
        apply statements.later.here.then
        intro _ next past
        exact ih next past (statements.later.onward past.toPassed)

/-- A success with any fuel is the one with enough of it. -/
theorem Ends.holds {α : Type} {action : Nat → Exec α} {machine final : Machine} {result : α}
    {post : α → Machine → Prop} (ends : Ends action machine post)
    (fuelled : ∀ {fuel more}, fuel ≤ more → Coupling.fuelled.Pairs Eq (action fuel) (action more))
    {fuel : Nat} (ran : action fuel machine = .ok result final) : post result final := by
  obtain ⟨outcome, settles, holds⟩ := ends
  have stays : Settles action machine (some (.ok result final)) :=
    ⟨fuel, fun more le => completed_of_fuelled (fuelled le rfl) (by rw [ran]; rfl)⟩
  exact holds result final (Option.some.inj (settles.unique stays))

/-! ## Arrays keep their lengths -/

theorem arraysKept_discipline :
    Discipline (fun first last => first.heap.ArraysKept last.heap)
      (fun first last => first.heap.ArraysKept last.heap) := by
  have same (heap : Heap) : heap.ArraysKept heap := ⟨Nat.le_refl _, fun _ _ => rfl⟩
  have trans {first middle last : Heap} (start : first.ArraysKept middle)
      (rest : middle.ArraysKept last) : first.ArraysKept last :=
    ⟨Nat.le_trans start.size rest.size, fun address inside =>
      (rest.length address (Nat.lt_of_lt_of_le inside start.size)).trans (start.length address inside)⟩
  exact
    { refl := fun machine => same machine.heap
      trans := trans
      moved := fun machine _ => same machine.heap
      weaken := id
      growing_trans := trans
      observed := fun machine _ _ => same machine.heap
      wrote := fun machine _ => same machine.heap
      allocated := fun machine items type => by
        constructor
        · simp
        · intro address inside
          rw [Heap.items_allocate, if_neg (Nat.ne_of_lt inside)]
      retagged := fun machine value type => by
        constructor
        · simp
        · simp
      written := fun machine address place value => by
        constructor
        · simp
        · intro other _
          rw [Heap.items_write]
          split <;> simp
      assigned := fun machine _ _ => same machine.heap
      declared := fun machine _ _ => same machine.heap
      registered := fun machine _ _ _ => same machine.heap
      closed := fun _ _ _ kept => kept
      iterated := fun _ _ kept => kept
      gave := fun machine _ => same machine.heap
      returned := fun machine function arguments final kept => by
        apply trans _ kept
        constructor
        · exact (grown_retagArguments machine.heap _).size
        · intro address _
          change (Heap.items (retagArguments machine.heap _) address).size = _
          rw [items_retagArguments] }

/-! ## The depth of calls -/

theorem bounded_laws (script : Script) : Coupling.bounded.Laws script script where
  scripts := .refl script
  agree := by
    rintro machine _ ⟨rfl, -⟩
    exact .refl machine
  moved := by
    rintro machine _ ⟨rfl, shallow⟩ place
    exact ⟨rfl, shallow⟩
  rescoped := by
    rintro machine _ ⟨rfl, shallow⟩ globals locals
    exact ⟨rfl, shallow⟩
  stored := by
    rintro machine _ ⟨rfl, shallow⟩ heap
    exact ⟨rfl, shallow⟩
  wrote := by
    rintro machine _ ⟨rfl, shallow⟩ text
    exact ⟨rfl, shallow⟩
  registered := by
    rintro machine _ ⟨rfl, shallow⟩ function functions _ _
    exact ⟨rfl, shallow⟩
  looped := by
    rintro machine _ ⟨rfl, shallow⟩ loopDepth
    exact ⟨rfl, shallow⟩
  gave := by
    rintro machine _ ⟨rfl, shallow⟩ value
    exact ⟨rfl, shallow⟩
  entered := by
    rintro machine _ ⟨rfl, -⟩ deeper function arguments
    exact ⟨rfl, deeper⟩
  returned := by
    rintro machine _ inside _ ⟨rfl, shallow⟩ function arguments added kept ⟨rfl, -⟩
    have frames : inside.frames = function :: machine.frames := kept.frames
    apply And.intro rfl
    change inside.frames.tail.length ≤ maxCallDepth
    rw [frames]
    exact shallow

/-- As long as the watch on the depth of calls is kept, it is the execution that is watched. -/
theorem bounded_watched (script : Script) (verbosity : Nat) (instead : Exec Signal) (fuel : Nat) :
    Coupling.bounded.Evaluators
      (watched script verbosity (fun _ _ machine => machine.frames.length ≤ maxCallDepth) instead fuel)
      (evaluator script verbosity fuel) := by
  have laws := bounded_laws script
  have control (fuel : Nat) : (evaluator script verbosity fuel).KeepsControl :=
    controlDiscipline.evaluates script verbosity fuel
  induction fuel with
  | zero => exact ⟨.throw .exhausted, .throw .exhausted, control 0⟩
  | succ fuel ih =>
      have rounds : Coupling.bounded.Rounds fuel fuel := .refl _ fuel
      apply Coupling.Evaluators.mk _ _ (control (fuel + 1))
      · exact laws.disjunction ih (laws.call ih rounds) rounds
      · rintro machine _ ⟨rfl, shallow⟩
        rw [watched_statement_of_holds script verbosity shallow]
        apply laws.dispatch ih rounds _ ⟨rfl, shallow⟩
        rintro machine _ ⟨rfl, shallow⟩
        exact ⟨rfl, shallow⟩

theorem throughout_bounded (script : Script) (verbosity fuel : Nat) :
    Throughout script verbosity fuel fun _ _ machine => machine.frames.length ≤ maxCallDepth := by
  intro instead
  have outcomes := (bounded_laws script).program
    (bounded_watched script verbosity instead fuel) (.refl _ fuel)
    (show Coupling.bounded.machines .initial .initial from ⟨rfl, Nat.zero_le _⟩)
  generalize program script (watched script verbosity _ instead fuel) fuel .initial = left at outcomes
  generalize program script (evaluator script verbosity fuel) fuel .initial = right at outcomes
  cases outcomes with
  | succeeded same related => rw [same, related.1]
  | failed alike related => rw [alike.eq, related.1]
  | early allowed => exact allowed.elim

/-! ## Whole runs -/

/-- What keeps the execution of a script within bounds. -/
structure Bounded (script : Script) (verbosity : Nat) : Prop where
  /-- With enough fuel the run is over, with success or with an error, and more fuel changes
  nothing. -/
  halts : ∃ run : Run, run.failure ≠ some .exhausted ∧
    ∃ enough, ∀ fuel, enough ≤ fuel → Run.ofScript script verbosity fuel = run
  /-- A statement that ends normally leaves the cursor further on, and not past the end. -/
  progress : ∀ fuel machine final, statement script verbosity fuel machine = .ok .normal final →
    machine.cursor < final.cursor ∧ script.Within machine.cursor final.cursor
  /-- Whatever a loop runs through is finite. -/
  iterations : ∀ fuel machine values final,
    iteration script (expression script verbosity fuel) machine = .ok values final → values.Finite
  /-- No array grows or shrinks, whatever the outcome. -/
  arrays : ∀ fuel (machine : Machine),
    machine.heap.ArraysKept (finalOf (expression script verbosity fuel machine)).heap ∧
      machine.heap.ArraysKept (finalOf (statement script verbosity fuel machine)).heap
  /-- Wherever the run comes to, no more calls are active than are allowed. -/
  calls : ∀ fuel,
    Throughout script verbosity fuel fun _ _ machine => machine.frames.length ≤ maxCallDepth

/-- A run is what the program ends with. -/
theorem run_halts (advances : ∀ machine,
      Advances script (fun fuel => statement script verbosity fuel) machine) :
    ∃ run : Run, run.failure ≠ some .exhausted ∧
      ∃ enough, ∀ fuel, enough ≤ fuel → Run.ofScript script verbosity fuel = run := by
  have ends : Proceeds script (fun fuel => program script (evaluator script verbosity fuel) fuel)
      .initial := proceeds_program fun next _ => advances next
  obtain ⟨outcome, ⟨enough, settles⟩, -⟩ := ends
  have ended := completed_of_completed (settles enough (Nat.le_refl enough))
  have ran (fuel : Nat) (le : enough ≤ fuel) :
      program script (evaluator script verbosity fuel) fuel .initial = outcome :=
    eq_of_completed (settles fuel le)
  cases outcome with
  | ok _ machine =>
      apply Exists.intro ⟨machine, none⟩
      apply And.intro nofun
      apply Exists.intro enough
      intro fuel le
      rw [Run.ofScript, ran fuel le]
  | error failure machine =>
      apply Exists.intro ⟨machine, some failure⟩
      constructor
      · intro spent
        cases spent
        cases ended
      · apply Exists.intro enough
        intro fuel le
        rw [Run.ofScript, ran fuel le]

theorem kindAt_of_tokens {kind : Kind} (proper : kind ≠ .endOfInput)
    (absent : ∀ token ∈ script.tokens, token.kind ≠ kind) (place : Nat) :
    script.kindAt place ≠ kind := by
  unfold Script.kindAt Script.tokenAt
  cases found : script.tokens[place]? with
  | none => exact proper.symm
  | some token => exact absent token (Array.mem_of_getElem? found)

/-- Every script without a `while` comes to an end, even if its functions call themselves and each
other: its loops are finite, its arrays never grow, each of its statements moves on, and there are never
more calls active than are allowed. -/
theorem bounded_without_while (script : Script) (verbosity : Nat)
    (counted : ∀ token ∈ script.tokens, token.kind ≠ .keyword .whileWord) :
    Bounded script verbosity := by
  have advances (machine : Machine) :
      Advances script (fun fuel => statement script verbosity fuel) machine :=
    (evaluator_advances (kindAt_of_tokens nofun counted) machine).2
  constructor
  · exact run_halts advances
  · intro fuel machine final ran
    have past : Past script machine final := (advances machine).holds
      (fun le => (fuelled_evaluators script verbosity le).statement) ran
    exact ⟨past.ahead, past.within⟩
  · intro fuel machine values final read
    exact iteration_finite read
  · intro fuel machine
    have keeps := arraysKept_discipline.evaluates script verbosity fuel
    exact ⟨keeps.expression machine, keeps.statement machine⟩
  · exact throughout_bounded script verbosity

/-- Two functions that call each other without end, in a loop that goes down by a fraction. -/
theorem bounded_without_while_mutual_recursion :
    let script := Script.ofSource
      ("func f(n: number): number \x7b return g(n) + 1 \x7d " ++
        "func g(n: number): number \x7b return f(n) \x7d " ++
          "for (i: number in 1..0..-0.5) \x7b println(i) f(i) \x7d").toList
    (∀ token ∈ script.tokens, token.kind ≠ .keyword .whileWord) ∧ Bounded script 0 := by
  intro script
  have counted : ∀ token ∈ script.tokens, token.kind ≠ .keyword .whileWord := by decide +kernel
  exact ⟨counted, bounded_without_while script 0 counted⟩

end Exec

end Onepass
