import Onepass.Execution.Run
import Onepass.Proofs.Lockstep.Statement

/-! # Watching a run does not disturb it

A run can be traced, more or less, and its statements can be counted or not. What is recorded is
written where every statement begins, however deep it is nested, and looks at the scopes and the calls
that are active. Here the recording is a parameter: counting from zero gives the execution itself, and
any two recordings of the same text leave everything but the record alike. With a high verbosity the
trace has a line for every statement that is counted.
-/

set_option autoImplicit false

namespace Onepass

/-- What is recorded about a run: how much the trace shows, and the count that its statements are added
to, if they are counted. -/
structure Recording where
  verbosity : Nat
  counter : Option Nat
  deriving DecidableEq, Repr

namespace Recording

/-- The machine before anything was executed. -/
def start (recording : Recording) : Machine :=
  { Machine.initial with steps := recording.counter.getD 0 }

/-- The machine when a statement was recorded and before it is executed. -/
def noted (recording : Recording) (script : Script) (machine : Machine) : Machine :=
  { Exec.observed script recording.verbosity machine with
    steps := if recording.counter.isSome then machine.steps + 1 else machine.steps }

theorem noted_steps (recording : Recording) (script : Script) {before : Nat}
    (counted : recording.counter = some before) (machine : Machine) :
    (recording.noted script machine).steps = machine.steps + 1 := by
  unfold noted
  rw [counted]
  rfl

/-- With a high verbosity every statement is shown. -/
theorem noted_trace_size (recording : Recording) (script : Script) (high : 2 ≤ recording.verbosity)
    (machine : Machine) : (recording.noted script machine).trace.size = machine.trace.size + 1 := by
  change (if (decide (2 ≤ recording.verbosity) || _) = true then _ else _ : Array String).size = _
  rw [decide_eq_true high, Bool.true_or, if_pos rfl, Array.size_push]

/-- Two records of one run: what both recordings count or show is the same in both records, and if the
first one shows and counts all statements, it has as many lines as statements. -/
structure Matches (left right : Recording) (trace : Array String) (steps : Nat)
    (other : Array String) (count : Nat) : Prop where
  counts : ∀ {before first}, left.counter = some before → right.counter = some first →
    steps + first = count + before
  traces : left.verbosity = right.verbosity → trace = other
  complete : ∀ {before}, 2 ≤ left.verbosity → left.counter = some before →
    steps = before + trace.size

end Recording

namespace Exec

/-- The evaluator whose statements are recorded in the given way. -/
def recorded (script : Script) (recording : Recording) : Nat → Evaluator
  | 0 => ⟨throw .exhausted, throw .exhausted⟩
  | fuel + 1 =>
    let evaluator := recorded script recording fuel
    { expression := disjunction script evaluator (call script evaluator fuel) fuel
      statement := fun machine =>
        perform script evaluator fuel (script.kindAt machine.cursor)
          (script.tokenAt machine.cursor).position (recording.noted script machine) }

theorem recorded_statement (script : Script) (recording : Recording) (fuel : Nat) (machine : Machine) :
    (recorded script recording (fuel + 1)).statement machine =
      perform script (recorded script recording fuel) fuel (script.kindAt machine.cursor)
        (script.tokenAt machine.cursor).position (recording.noted script machine) := rfl

/-- Counting from any number records statements as the program does. -/
theorem recorded_counting (script : Script) (verbosity before fuel : Nat) :
    recorded script ⟨verbosity, some before⟩ fuel = evaluator script verbosity fuel := by
  induction fuel with
  | zero => rfl
  | succ fuel ih =>
      unfold recorded
      rw [ih]
      rfl

theorem recorded_keepsControl (script : Script) (recording : Recording) (fuel : Nat) :
    (recorded script recording fuel).KeepsControl := by
  induction fuel with
  | zero =>
      exact ⟨controlDiscipline.throw _, controlDiscipline.grows (controlDiscipline.throw _)⟩
  | succ fuel ih =>
      refine ⟨controlDiscipline.disjunction script ih (controlDiscipline.call script ih fuel) fuel,
        fun machine => ?_⟩
      have noted : Machine.ControlKept [] machine (recording.noted script machine) :=
        .of_eq rfl rfl rfl
      exact controlDiscipline.growing_trans ⟨[], noted⟩
        (controlDiscipline.perform script ih fuel _ _)

end Exec

namespace Coupling

/-- Machines that differ only in what two recordings have written. -/
def recordings (left right : Recording) : Coupling where
  positions := Eq
  machines first second :=
    ∃ trace steps, second = { first with trace, steps } ∧
      left.Matches right first.trace first.steps trace steps
  lenient := False

variable (left right : Recording)

theorem recordings_laws (script : Script) : (recordings left right).Laws script script where
  scripts := .refl script
  agree := by
    rintro machine _ ⟨trace, steps, rfl, _⟩
    exact ⟨⟨rfl, rfl, rfl, rfl, rfl⟩, rfl, rfl, rfl, rfl⟩
  moved := by
    rintro machine _ ⟨trace, steps, rfl, records⟩ place
    exact ⟨trace, steps, rfl, records⟩
  rescoped := by
    rintro machine _ ⟨trace, steps, rfl, records⟩ globals locals
    exact ⟨trace, steps, rfl, records⟩
  stored := by
    rintro machine _ ⟨trace, steps, rfl, records⟩ heap
    exact ⟨trace, steps, rfl, records⟩
  wrote := by
    rintro machine _ ⟨trace, steps, rfl, records⟩ text
    exact ⟨trace, steps, rfl, records⟩
  registered := by
    rintro machine _ ⟨trace, steps, rfl, records⟩ function functions _ _
    exact ⟨trace, steps, rfl, records⟩
  looped := by
    rintro machine _ ⟨trace, steps, rfl, records⟩ loopDepth
    exact ⟨trace, steps, rfl, records⟩
  gave := by
    rintro machine _ ⟨trace, steps, rfl, records⟩ value
    exact ⟨trace, steps, rfl, records⟩
  entered := by
    rintro machine _ ⟨trace, steps, rfl, records⟩ _ function arguments
    exact ⟨trace, steps, rfl, records⟩
  returned := by
    rintro machine _ inside _ ⟨_, _, rfl, _⟩ _ _ _ _ ⟨trace, steps, rfl, records⟩
    exact ⟨trace, steps, rfl, records⟩

/-- Recording a statement in two ways keeps what the records have in common. -/
theorem recordings_noted (script : Script) {first second : Machine}
    (related : (recordings left right).machines first second) :
    (recordings left right).machines (left.noted script first) (right.noted script second) := by
  obtain ⟨trace, steps, rfl, records⟩ := related
  refine ⟨(right.noted script _).trace, (right.noted script _).steps, rfl, ?_⟩
  constructor
  · intro before other counted twice
    have same := records.counts counted twice
    rw [left.noted_steps script counted, right.noted_steps script twice]
    dsimp only
    omega
  · intro verbosity
    obtain rfl := records.traces verbosity
    simp only [Recording.noted, Exec.observed, verbosity]
    rfl
  · intro before shown counted
    have size := records.complete shown counted
    rw [left.noted_steps script counted, left.noted_trace_size script shown]
    omega

theorem recordings_start : (recordings left right).machines left.start right.start := by
  refine ⟨_, _, rfl, ?_⟩
  constructor
  · intro before other counted twice
    simp [Recording.start, counted, twice, Nat.add_comm]
  · intro _
    rfl
  · intro before _ counted
    simp [Recording.start, Machine.initial, counted]

theorem recordings_evaluators (script : Script) (fuel : Nat) :
    (recordings left right).Evaluators (Exec.recorded script left fuel)
      (Exec.recorded script right fuel) := by
  have laws := recordings_laws left right script
  induction fuel with
  | zero => exact ⟨.throw .exhausted, .throw .exhausted, Exec.recorded_keepsControl script right 0⟩
  | succ fuel ih =>
      refine ⟨laws.disjunction ih (laws.call ih (.refl _ fuel)) (.refl _ fuel), ?_,
        Exec.recorded_keepsControl script right (fuel + 1)⟩
      intro first second related
      have place := (laws.agree related).cursor
      rw [Exec.recorded_statement, Exec.recorded_statement, ← place]
      exact laws.perform ih (.refl _ fuel) rfl (recordings_noted left right script related)

end Coupling

/-- Executes a source text with the given recording. -/
def Run.recorded (strict : Bool) (source : String) (recording : Recording) (fuel : Nat) : Run :=
  match Script.read strict source with
  | .ok script =>
    match Exec.program script (Exec.recorded script recording fuel) fuel recording.start with
    | .ok _ machine => ⟨machine, none⟩
    | .error failure machine => ⟨machine, some failure⟩
  | .error diagnostic => ⟨recording.start, some (.diagnostic diagnostic)⟩

/-- A run is recorded by counting its statements from zero. -/
theorem Run.recorded_from_zero (strict : Bool) (source : String) (verbosity fuel : Nat) :
    recorded strict source ⟨verbosity, some 0⟩ fuel = ofSource strict source verbosity fuel := by
  unfold recorded ofSource ofScript
  simp only [Exec.recorded_counting]
  rfl

theorem Run.recorded_related (strict : Bool) (source : String) (left right : Recording) (fuel : Nat) :
    let first := recorded strict source left fuel
    let second := recorded strict source right fuel
    (Coupling.recordings left right).machines first.machine second.machine ∧
      second.failure = first.failure := by
  unfold recorded
  cases Script.read strict source with
  | error diagnostic => exact ⟨Coupling.recordings_start left right, rfl⟩
  | ok script =>
      have outcomes := (Coupling.recordings_laws left right script).program
        (Coupling.recordings_evaluators left right script fuel) (.refl _ fuel)
        (Coupling.recordings_start left right)
      dsimp only
      generalize Exec.program script _ fuel _ = outcome at outcomes ⊢
      generalize Exec.program script _ fuel _ = twin at outcomes ⊢
      cases outcomes with
      | succeeded _ related => exact ⟨related, rfl⟩
      | failed alike related => exact ⟨related, congrArg some alike.eq.symm⟩
      | early allowed => exact allowed.elim

/-- Watching a run does not disturb it. For every source text, strict or not, and any two recordings,
the runs end with the same machine but for the record, and with the same failure or none, so the same
is reported. A count that both make is the same from where they begin, and so is a trace of the same
verbosity; with a high verbosity the trace has a line for every statement that is counted. The run that
counts from zero is the run itself. -/
theorem Run.undisturbed_by_recording (strict : Bool) (source : String) (left right : Recording)
    (fuel : Nat) :
    let first := recorded strict source left fuel
    let second := recorded strict source right fuel
    second.machine = { first.machine with
        trace := second.machine.trace, steps := second.machine.steps } ∧
      second.failure = first.failure ∧
      (∀ file, second.report? source file = first.report? source file) ∧
      (∀ before other, left.counter = some before → right.counter = some other →
        first.machine.steps + other = second.machine.steps + before) ∧
      (left.verbosity = right.verbosity → first.machine.trace = second.machine.trace) ∧
      (∀ before, 2 ≤ left.verbosity → left.counter = some before →
        first.machine.steps = before + first.machine.trace.size) ∧
      ∀ verbosity, recorded strict source ⟨verbosity, some 0⟩ fuel =
        ofSource strict source verbosity fuel := by
  intro first second
  have ended := recorded_related strict source left right fuel
  obtain ⟨⟨trace, steps, same, records⟩, failure⟩ := ended
  refine ⟨?_, failure, ?_, ?_, ?_, ?_, fun verbosity => recorded_from_zero strict source verbosity fuel⟩
  · rw [same]
  · intro file
    unfold report?
    rw [failure]
  · intro before other counted twice
    rw [same]
    exact records.counts counted twice
  · intro verbosity
    rw [same]
    exact records.traces verbosity
  · intro before high counted
    exact records.complete high counted

end Onepass
