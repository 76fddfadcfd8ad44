import Onepass.Proofs.Control

/-! # Signals stay inside their constructs

A statement gives `break` or `continue` only inside a loop of the running function, and `return` only
inside a call; loops give neither `break` nor `continue`. So the loop that executes the statements of
a program, which looks at no signal, never loses one, and the body of a call never sees a `break` or
a `continue`, not even if the call stands inside a loop.

Whether a signal is allowed depends on the frames and on the number of active loops only. Both are
part of the control state that expressions and statements keep.
-/

set_option autoImplicit false

namespace Onepass

open Machine (ControlKept)

/-- Whether a statement that is executed on the machine may end with the signal. -/
def Signal.Allowed (machine : Machine) : Signal → Prop
  | .normal => True
  | .breaking | .continuing => 0 < machine.loopDepth
  | .returning => machine.frames ≠ []

/-- Whether a loop that is executed on the machine may end with the signal. -/
def Signal.LeavesLoop (machine : Machine) : Signal → Prop
  | .normal => True
  | .breaking | .continuing => False
  | .returning => machine.frames ≠ []

/-- The condition says the same of machines with the same control state. -/
def ControlCondition (condition : Machine → Signal → Prop) : Prop :=
  ∀ (first last : Machine) (added : List Entry) (signal : Signal),
    first.ControlKept added last → condition last signal → condition first signal

theorem Signal.allowed_control : ControlCondition Allowed := by
  intro first last added signal kept allowed
  cases signal with
  | normal => trivial
  | breaking | continuing => exact Nat.lt_of_lt_of_eq allowed kept.loopDepth
  | returning => exact fun none => allowed (kept.frames.trans none)

theorem Signal.leavesLoop_control : ControlCondition LeavesLoop := by
  intro first last added signal kept allowed
  cases signal with
  | normal => trivial
  | breaking | continuing => exact allowed
  | returning => exact fun none => allowed (kept.frames.trans none)

theorem Signal.LeavesLoop.allowed {machine : Machine} {signal : Signal}
    (leaves : signal.LeavesLoop machine) : signal.Allowed machine := by
  cases signal with
  | normal => trivial
  | breaking | continuing => exact leaves.elim
  | returning => exact leaves

namespace Exec

/-- An action that succeeds ends with a signal that satisfies the condition on the machine that the
action started on. -/
def Gives (condition : Machine → Signal → Prop) (action : Exec Signal) : Prop :=
  ∀ (machine final : Machine) (signal : Signal), action machine = .ok signal final →
    condition machine signal

/-- An action after which the control state is the same but for new names. -/
abbrev KeepsControl {α : Type} (action : Exec α) : Prop :=
  Keeps (fun first last => ∃ added, first.ControlKept added last) action

namespace Gives

variable {condition : Machine → Signal → Prop} {α : Type}

theorem bind (control : ControlCondition condition) {action : Exec α} {next : α → Exec Signal}
    (kept : Keeps (ControlKept []) action) (rest : ∀ value, Gives condition (next value)) :
    Gives condition (action >>= next) := by
  intro machine final signal ran
  obtain ⟨value, middle, first, ran⟩ := bind_ok ran
  exact control _ _ _ _ (kept.ok first) (rest value _ _ _ ran)

/-- After an action that ended normally another one follows; any other signal is passed on. -/
theorem unlessNormal (control : ControlCondition condition) {action : Exec Signal}
    {next : Signal → Exec Signal} (gives : Gives condition action) (kept : KeepsControl action)
    (normal : Gives condition (next .normal)) (breaking : next .breaking = pure .breaking)
    (continuing : next .continuing = pure .continuing)
    (returning : next .returning = pure .returning) :
    Gives condition (action >>= next) := by
  intro machine final signal ran
  obtain ⟨ended, middle, first, ran⟩ := bind_ok ran
  have passed (same : next ended = pure ended) : condition machine signal := by
    rw [same] at ran
    obtain ⟨rfl, -⟩ := pure_ok ran
    exact gives _ _ _ first
  cases ended with
  | normal =>
      obtain ⟨added, kept⟩ := kept.ok first
      exact control _ _ _ _ kept (normal _ _ _ ran)
  | breaking => exact passed breaking
  | continuing => exact passed continuing
  | returning => exact passed returning

theorem throw (failure : Failure) : Gives condition (MonadExcept.throw failure) :=
  fun _ _ _ ran => absurd ran throw_ne_ok

theorem refuse (cause : Cause) (position : Position) : Gives condition (Exec.refuse cause position) :=
  fun _ _ _ ran => absurd ran refuse_ne_ok

/-- After a refusal nothing else is done. -/
theorem stopped (cause : Cause) (position : Position) (next : α → Exec Signal) :
    Gives condition (Exec.refuse cause position >>= next) := by
  intro machine final signal ran
  obtain ⟨_, _, refused, -⟩ := bind_ok ran
  exact absurd refused refuse_ne_ok

theorem normal (holds : ∀ machine, condition machine .normal) : Gives condition (pure .normal) := by
  intro machine final signal ran
  obtain ⟨rfl, -⟩ := pure_ok ran
  exact holds _

end Gives

open Signal (Allowed LeavesLoop allowed_control leavesLoop_control)

variable {script : Script} {evaluator : Evaluator}

/-- A simple statement ends normally. -/
theorem simple_normal {action : Exec Unit} {machine final : Machine} {signal : Signal}
    (ran : simple script action machine = .ok signal final) : signal = .normal := by
  obtain ⟨_, _, -, ran⟩ := bind_ok ran
  obtain ⟨_, _, -, ran⟩ := bind_ok ran
  exact (pure_ok ran).1

/-! ## Bodies and conditionals -/

theorem block_allowed {statement : Exec Signal} (kept : KeepsControl statement)
    (gives : Gives Allowed statement) (fuel : Nat) : Gives Allowed (block script statement fuel) := by
  induction fuel with
  | zero => exact .throw _
  | succ fuel ih =>
      unfold block
      refine .bind allowed_control (controlDiscipline.currentKind script) fun kind => ?_
      split
      · exact .bind allowed_control (controlDiscipline.advance script) fun _ =>
          .normal fun _ => trivial
      · exact .bind allowed_control (controlDiscipline.current script) fun _ => .refuse _ _
      · exact .unlessNormal allowed_control gives kept ih rfl rfl rfl

theorem bodyContent_allowed (keeps : evaluator.KeepsControl) (gives : Gives Allowed evaluator.statement)
    (fuel : Nat) : Gives Allowed (bodyContent script evaluator fuel) := by
  refine .bind allowed_control (controlDiscipline.accept script _) fun braced => ?_
  split
  · exact block_allowed keeps.statement gives fuel
  · exact gives

theorem body_allowed (keeps : evaluator.KeepsControl) (gives : Gives Allowed evaluator.statement)
    (scope : Scope) (fuel : Nat) : Gives Allowed (body script evaluator scope fuel) := by
  intro machine final signal ran
  change ensuring closeScope (bodyContent script evaluator fuel)
    { machine with scopes := machine.scopes.push scope } = .ok signal final at ran
  obtain ⟨middle, inside, -⟩ := ensuring_ok ran
  have allowed := bodyContent_allowed keeps gives fuel _ _ _ inside
  cases signal <;> exact allowed

theorem branches_allowed (keeps : evaluator.KeepsControl) (gives : Gives Allowed evaluator.statement)
    (fuel : Nat) (taken : Bool) : Gives Allowed (branches script evaluator fuel taken) := by
  have normal : Gives Allowed (pure .normal) := .normal fun _ => trivial
  have passing {next : Exec Signal} (rest : Gives Allowed next) :
      Gives Allowed (passBody script >>= fun _ => next) :=
    .bind allowed_control (controlDiscipline.passBody script) fun _ => rest
  induction fuel generalizing taken with
  | zero => exact .throw _
  | succ fuel ih =>
      unfold branches
      refine .bind allowed_control (controlDiscipline.accept script _) fun again => ?_
      split
      · refine .bind allowed_control (controlDiscipline.conditionInParentheses script keeps)
          fun holds => ?_
        split
        · exact .unlessNormal allowed_control (body_allowed keeps gives _ fuel)
            (controlDiscipline.grows (controlDiscipline.body script keeps _ fuel)) (ih true) rfl rfl rfl
        · exact passing (ih taken)
      · refine .bind allowed_control (controlDiscipline.accept script _) fun last => ?_
        split
        · split
          · exact passing normal
          · exact body_allowed keeps gives _ fuel
        · exact normal

theorem conditional_allowed (keeps : evaluator.KeepsControl) (gives : Gives Allowed evaluator.statement)
    (fuel : Nat) : Gives Allowed (conditional script evaluator fuel) := by
  refine .bind allowed_control (controlDiscipline.expect script _) fun _ => ?_
  refine .bind allowed_control (controlDiscipline.conditionInParentheses script keeps) fun holds => ?_
  split
  · exact .unlessNormal allowed_control (body_allowed keeps gives _ fuel)
      (controlDiscipline.grows (controlDiscipline.body script keeps _ fuel))
      (branches_allowed keeps gives fuel true) rfl rfl rfl
  · exact .bind allowed_control (controlDiscipline.passBody script) fun _ =>
      branches_allowed keeps gives fuel false

/-! ## Loops -/

/-- Only a `return` inside a call leaves the body of a loop for good. -/
theorem iterate_returning (keeps : evaluator.KeepsControl) (gives : Gives Allowed evaluator.statement)
    {scope : Scope} {fuel : Nat} {machine final : Machine}
    (ran : iterate script evaluator scope fuel machine = .ok .returning final) :
    machine.frames ≠ [] := by
  change ensuring _ (body script evaluator scope fuel)
    { machine with loopDepth := machine.loopDepth + 1 } = .ok _ final at ran
  obtain ⟨middle, inside, -⟩ := ensuring_ok ran
  exact body_allowed keeps gives scope fuel _ _ _ inside

theorem leaveLoop_leaves (bodyStart : Nat) (known : Option Nat) :
    Gives LeavesLoop (leaveLoop script bodyStart known) := by
  have moving (place : Nat) : Gives LeavesLoop (moveTo place >>= fun _ => pure .normal) :=
    .bind leavesLoop_control (controlDiscipline.moveTo place) fun _ => .normal fun _ => trivial
  unfold leaveLoop
  split
  · exact moving _
  · exact .bind leavesLoop_control (controlDiscipline.bodyEnd script bodyStart) moving

theorem leaveRepetition_leaves (header : Nat) (known : Option Nat) :
    Gives LeavesLoop (leaveRepetition script header known) := by
  unfold leaveRepetition
  split
  · exact .bind leavesLoop_control (controlDiscipline.moveTo _) fun _ => .normal fun _ => trivial
  · exact .bind leavesLoop_control (controlDiscipline.ofDiagnosed _) fun bodyStart =>
      leaveLoop_leaves bodyStart.val none

/-- After an iteration a loop is left, gone on with or returned from. -/
theorem iterate_leaves (keeps : evaluator.KeepsControl) (gives : Gives Allowed evaluator.statement)
    (scope : Scope) (fuel : Nat) {next : Signal → Exec Signal}
    (others : ∀ signal, signal ≠ .returning → Gives LeavesLoop (next signal))
    (returned : ∀ machine final signal,
      next .returning machine = .ok signal final → signal = .returning) :
    Gives LeavesLoop (iterate script evaluator scope fuel >>= next) := by
  intro machine final signal ran
  obtain ⟨ended, middle, iterated, ran⟩ := bind_ok ran
  have kept := (controlDiscipline.iterate script keeps scope fuel).ok iterated
  cases ended with
  | returning =>
      obtain rfl := returned _ _ _ ran
      exact iterate_returning keeps gives iterated
  | normal | breaking | continuing =>
      refine leavesLoop_control _ _ _ _ kept (others _ ?_ _ _ _ ran)
      exact nofun

theorem traverse_leaves (keeps : evaluator.KeepsControl) (gives : Gives Allowed evaluator.statement)
    (name : Token) (type : DeclaredType) (bodyStart fuel : Nat) (iteration : Iteration)
    (known : Option Nat) :
    Gives LeavesLoop (traverse script evaluator name type bodyStart fuel iteration known) := by
  induction fuel generalizing iteration known with
  | zero => exact .throw _
  | succ fuel ih =>
      unfold traverse
      refine .bind leavesLoop_control (controlDiscipline.nextOf iteration) fun next => ?_
      split
      · exact leaveLoop_leaves bodyStart known
      · rename_i value rest
        refine .bind leavesLoop_control (controlDiscipline.conforms value type) fun fits => ?_
        split
        · exact .bind leavesLoop_control (controlDiscipline.describe value) fun _ => .stopped _ _ _
        · refine .bind leavesLoop_control (controlDiscipline.moveTo bodyStart) fun _ => ?_
          refine iterate_leaves keeps gives _ fuel (fun signal other => ?_) ?_
          · refine .bind leavesLoop_control (controlDiscipline.noteEnd known signal) fun known => ?_
            cases signal with
            | breaking => exact leaveLoop_leaves bodyStart known
            | returning => exact absurd rfl other
            | normal | continuing => exact ih rest known
          · intro machine final signal ran
            obtain ⟨known, middle, -, ran⟩ := bind_ok ran
            exact (pure_ok ran).1

theorem traversal_leaves (keeps : evaluator.KeepsControl) (gives : Gives Allowed evaluator.statement)
    (fuel : Nat) : Gives LeavesLoop (traversal script evaluator fuel) := by
  refine .bind leavesLoop_control (controlDiscipline.expect script _) fun _ => ?_
  refine .bind leavesLoop_control (controlDiscipline.expectSymbol script _) fun _ => ?_
  refine .bind leavesLoop_control (controlDiscipline.expect script _) fun name => ?_
  refine .bind leavesLoop_control (controlDiscipline.expectSymbol script _) fun _ => ?_
  refine .bind leavesLoop_control (controlDiscipline.readType script) fun type => ?_
  refine .bind leavesLoop_control (controlDiscipline.expect script _) fun _ => ?_
  refine .bind leavesLoop_control (controlDiscipline.iteration script keeps.expression)
    fun values => ?_
  refine .bind leavesLoop_control (controlDiscipline.expectSymbol script _) fun _ => ?_
  exact .bind leavesLoop_control controlDiscipline.get fun machine =>
    traverse_leaves keeps gives name type machine.cursor fuel values none

theorem repeatWhile_leaves (keeps : evaluator.KeepsControl) (gives : Gives Allowed evaluator.statement)
    (header fuel : Nat) (known : Option Nat) :
    Gives LeavesLoop (repeatWhile script evaluator header fuel known) := by
  induction fuel generalizing known with
  | zero => exact .throw _
  | succ fuel ih =>
      unfold repeatWhile
      refine .bind leavesLoop_control (controlDiscipline.moveTo header) fun _ => ?_
      refine .bind leavesLoop_control
        (controlDiscipline.conditionInParentheses script keeps) fun holds => ?_
      split
      · refine iterate_leaves keeps gives _ fuel (fun signal other => ?_) ?_
        · refine .bind leavesLoop_control (controlDiscipline.noteEnd known signal) fun known => ?_
          cases signal with
          | breaking => exact leaveRepetition_leaves header known
          | returning => exact absurd rfl other
          | normal | continuing => exact ih known
        · intro machine final signal ran
          obtain ⟨known, middle, -, ran⟩ := bind_ok ran
          exact (pure_ok ran).1
      · exact leaveRepetition_leaves header known

theorem repetition_leaves (keeps : evaluator.KeepsControl) (gives : Gives Allowed evaluator.statement)
    (fuel : Nat) : Gives LeavesLoop (repetition script evaluator fuel) :=
  .bind leavesLoop_control (controlDiscipline.expect script _) fun _ =>
    .bind leavesLoop_control controlDiscipline.get fun machine =>
      repeatWhile_leaves keeps gives machine.cursor fuel none

/-! ## Statements -/

/-- A `break` or a `continue` is accepted inside a loop only. -/
theorem jump_allowed : Gives Allowed (jump script) := by
  refine .bind allowed_control (controlDiscipline.advance script) fun token => ?_
  intro machine final signal ran
  obtain ⟨inside, ran⟩ := guarded_ok (get_bind_ok ran)
  obtain ⟨_, _, -, ran⟩ := bind_ok ran
  obtain ⟨rfl, -⟩ := pure_ok ran
  split <;> exact Nat.pos_of_ne_zero inside

/-- A `return` is accepted inside a call only. -/
theorem returnFrom_allowed : Gives Allowed (returnFrom script evaluator) := by
  refine .bind allowed_control (controlDiscipline.advance script) fun token => ?_
  intro machine final signal ran
  have ran := get_bind_ok ran
  cases active : machine.frames with
  | nil =>
      simp only [active] at ran
      exact absurd ran refuse_ne_ok
  | cons function others =>
      simp only [active] at ran
      obtain ⟨value, _, -, ran⟩ := bind_ok ran
      obtain ⟨_, _, -, ran⟩ := bind_ok ran
      obtain ⟨_, _, -, ran⟩ := bind_ok ran
      obtain ⟨_, _, -, ran⟩ := bind_ok ran
      obtain ⟨rfl, -⟩ := pure_ok ran
      exact fun none => absurd (active.symm.trans none) (List.cons_ne_nil _ _)

theorem perform_allowed (keeps : evaluator.KeepsControl) (gives : Gives Allowed evaluator.statement)
    (fuel : Nat) (kind : Kind) (position : Position) :
    Gives Allowed (perform script evaluator fuel kind position) := by
  have simple {action : Exec Unit} : Gives Allowed (simple script action) := by
    intro machine final signal ran
    obtain rfl := simple_normal ran
    trivial
  unfold perform
  split
  · exact simple
  · exact simple
  · exact conditional_allowed keeps gives fuel
  · exact fun _ _ _ ran => (traversal_leaves keeps gives fuel _ _ _ ran).allowed
  · exact fun _ _ _ ran => (repetition_leaves keeps gives fuel _ _ _ ran).allowed
  · exact simple
  · exact returnFrom_allowed
  · exact jump_allowed
  · exact jump_allowed
  · exact body_allowed keeps gives _ fuel
  · exact simple
  · exact simple
  · exact simple
  · exact .refuse _ _

/-- Every statement gives a signal that is allowed where it stands, with any amount of fuel. -/
theorem statement_allowed (script : Script) (verbosity fuel : Nat) :
    Gives Allowed (Exec.evaluator script verbosity fuel).statement := by
  induction fuel with
  | zero => exact .throw _
  | succ fuel ih =>
      have keeps := controlDiscipline.evaluates script verbosity fuel
      intro machine final signal ran
      change dispatch script verbosity (Exec.evaluator script verbosity fuel) fuel machine = _ at ran
      rw [dispatch_eq] at ran
      exact allowed_control _ _ _ _ (controlDiscipline.begins script verbosity machine)
        (perform_allowed keeps ih fuel _ _ _ _ _ ran)

/-! ## Programs and calls -/

/-- So many statements, executed one after the other from one machine on, lead to another. The
condition says when the next one follows. -/
inductive Executed (statement : Exec Signal) (followed : Machine → Signal → Prop) (first : Machine) :
    Nat → Machine → Prop
  | start : Executed statement followed first 0 first
  | next {count : Nat} {machine final : Machine} {signal : Signal}
      (reached : Executed statement followed first count machine)
      (ran : statement machine = .ok signal final) (more : followed machine signal) :
      Executed statement followed first (count + 1) final

/-- Statements follow each other up to the end of the script, whatever they end with. -/
def followedInProgram (script : Script) (machine : Machine) (_ : Signal) : Prop :=
  script.kindAt machine.cursor ≠ .endOfInput

/-- Statements follow each other up to the end of the body, as long as they end normally. -/
def followedInCall (function : Function) (machine : Machine) (signal : Signal) : Prop :=
  machine.cursor < function.finish ∧ signal = .normal

theorem Executed.kept {statement : Exec Signal} (keeps : KeepsControl statement)
    {followed : Machine → Signal → Prop} {first machine : Machine} {count : Nat}
    (executed : Executed statement followed first count machine) :
    ∃ added, first.ControlKept added machine := by
  induction executed with
  | start => exact ⟨[], .refl first⟩
  | next _ ran _ ih =>
      obtain ⟨before, start⟩ := ih
      obtain ⟨after, rest⟩ := keeps.ok ran
      exact ⟨before ++ after, start.trans rest⟩

/-- The machines between the statements of a program are those that executing it passes through. -/
theorem Executed.program_eq {first machine : Machine} {count : Nat}
    (executed : Executed evaluator.statement (followedInProgram script) first count machine)
    (rounds : Nat) :
    program script evaluator (rounds + count) first = program script evaluator rounds machine := by
  induction executed generalizing rounds with
  | start => rfl
  | @next count machine final signal _ ran more ih =>
      rw [← Nat.add_assoc, Nat.add_right_comm, ih (rounds + 1)]
      change (if script.kindAt machine.cursor = .endOfInput then pure () else do
        let _ ← evaluator.statement
        program script evaluator rounds : Exec Unit) machine = _
      rw [if_neg more, bind_of_ok ran]

/-- The machines between the statements of a body are those that a call passes through. -/
theorem Executed.statementsUntil_eq {statement : Exec Signal} {function : Function}
    {first machine : Machine} {count : Nat}
    (executed : Executed statement (followedInCall function) first count machine) (rounds : Nat) :
    statementsUntil statement function.finish (rounds + count) first =
      statementsUntil statement function.finish rounds machine := by
  induction executed generalizing rounds with
  | start => rfl
  | @next count machine final signal _ ran more ih =>
      obtain ⟨inside, rfl⟩ := more
      rw [← Nat.add_assoc, Nat.add_right_comm, ih (rounds + 1)]
      change (if machine.cursor < function.finish then _ else _ : Exec Signal) machine = _
      rw [if_pos inside, bind_of_ok ran]

/-- Signals never leave their constructs. Whatever the machine is, a statement gives `break` or
`continue` only inside a loop and `return` only inside a call, and loops give neither `break` nor
`continue`. All statements that a program executes outside calls end normally if they succeed, so that
no signal is lost between them; and those of a body called from anywhere end normally or with
`return`. -/
theorem signals_contained (script : Script) (verbosity fuel : Nat) :
    (∀ machine final signal, statement script verbosity fuel machine = .ok signal final →
      (signal = .breaking ∨ signal = .continuing → 0 < machine.loopDepth) ∧
      (signal = .returning → machine.frames ≠ [])) ∧
    (∀ rounds machine final signal,
      traversal script (Exec.evaluator script verbosity fuel) rounds machine = .ok signal final ∨
        repetition script (Exec.evaluator script verbosity fuel) rounds machine = .ok signal final →
      signal ≠ .breaking ∧ signal ≠ .continuing) ∧
    (∀ count machine,
      Executed (statement script verbosity fuel) (followedInProgram script) .initial count machine →
      (∀ rounds, program script (Exec.evaluator script verbosity fuel) (rounds + count) .initial =
        program script (Exec.evaluator script verbosity fuel) rounds machine) ∧
      ∀ final signal, statement script verbosity fuel machine = .ok signal final → signal = .normal) ∧
    (∀ function arguments caller count machine,
      Executed (statement script verbosity fuel) (followedInCall function)
        (enterCall function arguments caller) count machine →
      (∀ rounds, statementsUntil (statement script verbosity fuel) function.finish (rounds + count)
          (enterCall function arguments caller) =
        statementsUntil (statement script verbosity fuel) function.finish rounds machine) ∧
      ∀ final signal, statement script verbosity fuel machine = .ok signal final →
        signal = .normal ∨ signal = .returning) := by
  have keeps := controlDiscipline.evaluates script verbosity fuel
  have gives := statement_allowed script verbosity fuel
  refine ⟨?_, ?_, ?_, ?_⟩
  · intro machine final signal ran
    have allowed := gives machine final signal ran
    cases signal with
    | normal => exact ⟨nofun, nofun⟩
    | breaking | continuing => exact ⟨fun _ => allowed, nofun⟩
    | returning => exact ⟨nofun, fun _ => allowed⟩
  · intro rounds machine final signal ran
    have leaves : signal.LeavesLoop machine :=
      ran.elim (traversal_leaves keeps gives rounds _ _ _) (repetition_leaves keeps gives rounds _ _ _)
    cases signal with
    | normal | returning => exact ⟨nofun, nofun⟩
    | breaking | continuing => exact leaves.elim
  · intro count machine executed
    obtain ⟨added, kept⟩ := executed.kept keeps.statement
    refine ⟨executed.program_eq, fun final signal ran => ?_⟩
    have allowed := allowed_control _ _ _ _ kept (gives machine final signal ran)
    cases signal with
    | normal => rfl
    | breaking | continuing => cases allowed
    | returning => exact absurd rfl allowed
  · intro function arguments caller count machine executed
    obtain ⟨added, kept⟩ := executed.kept keeps.statement
    refine ⟨executed.statementsUntil_eq, fun final signal ran => ?_⟩
    have allowed := allowed_control _ _ _ _ kept (gives machine final signal ran)
    cases signal with
    | normal => exact .inl rfl
    | breaking | continuing => cases allowed
    | returning => exact .inr rfl

end Exec

end Onepass
