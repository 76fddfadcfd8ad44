import Onepass.Proofs.Diagnosis
import Onepass.Proofs.Rounds
import Onepass.Proofs.Signals
import Onepass.Proofs.Transport.Self

/-! # Numbers out of range

A result that lies beyond the largest exponent is no number. Where an operator comes to one, the
execution fails with a diagnostic at the token of the operator, from however deep inside it that
happens, since no construct goes on after a failure. A counting loop that steps beyond the largest
exponent fails too, but without a diagnostic. This is the only way: if loops reported their steps as
operators do, every execution would end on the same machine, and fail in the same way or with a
diagnostic in place of such a step.
-/

set_option autoImplicit false

namespace Onepass

namespace Exec

variable {α β : Type}

/-- Performing an action on a machine comes to performing a part of it on some machine inside. -/
inductive Performs {β : Type} (part : Exec β) (inside : Machine) :
    {α : Type} → Exec α → Machine → Prop
  | whole : Performs part inside part inside
  | first {α γ : Type} {action : Exec α} {next : α → Exec γ} {machine : Machine}
      (performs : Performs part inside action machine) : Performs part inside (action >>= next) machine
  | later {α γ : Type} {action : Exec α} {next : α → Exec γ} {machine middle : Machine} {value : α}
      (ran : action machine = .ok value middle)
      (performs : Performs part inside (next value) middle) :
      Performs part inside (action >>= next) machine
  | tidied {α : Type} {action : Exec α} {machine : Machine} (tidy : Machine → Machine)
      (performs : Performs part inside action machine) :
      Performs part inside (ensuring tidy action) machine

/-- Nothing goes on after a failure: it is the failure of everything around it. -/
theorem Performs.failed {part : Exec β} {inside after : Machine} {failure : Failure}
    {action : Exec α} {machine : Machine} (performs : Performs part inside action machine)
    (failed : part inside = .error failure after) :
    ∃ final, action machine = .error failure final := by
  induction performs with
  | whole => exact ⟨after, failed⟩
  | first _ ih =>
      obtain ⟨middle, ended⟩ := ih
      exact ⟨middle, bind_of_error ended _⟩
  | later ran _ ih =>
      obtain ⟨final, ended⟩ := ih
      exact ⟨final, (bind_of_ok ran _).trans ended⟩
  | tidied tidy _ ih =>
      obtain ⟨final, ended⟩ := ih
      refine ⟨tidy final, ?_⟩
      unfold ensuring
      rw [ended]

/-! ## What is performed -/

section

variable {part : Exec β} {inside machine middle : Machine} {script : Script} {evaluator : Evaluator}
variable {verbosity fuel rounds : Nat}

/-- Where a statement follows, a program executes it and goes on. -/
theorem performs_program (proper : script.kindAt machine.cursor ≠ .endOfInput)
    (performs : Performs part inside
      (evaluator.statement >>= fun _ => program script evaluator rounds) machine) :
    Performs part inside (program script evaluator (rounds + 1)) machine := by
  have read : currentKind script machine = .ok (script.kindAt machine.cursor) machine := rfl
  apply Performs.later read
  rw [if_neg proper]
  exact performs

/-- A program performs what a statement does that it comes to. -/
theorem performs_executed {first : Machine} {count : Nat}
    (executed : Executed evaluator.statement (followedInProgram script) first count machine)
    (proper : script.kindAt machine.cursor ≠ .endOfInput)
    (performs : Performs part inside evaluator.statement machine) :
    Performs part inside (program script evaluator (rounds + 1 + count)) first := by
  have begun : Performs part inside (program script evaluator (rounds + 1)) machine :=
    performs_program proper (.first performs)
  clear proper performs
  -- The statements before it are taken back one by one, from the last to the first.
  induction executed generalizing rounds with
  | start => exact begun
  | next _ ran more ih =>
      rw [← Nat.add_assoc, Nat.add_right_comm]
      exact ih (performs_program more (.later ran begun))

/-- A statement performs what is done for its kind. -/
theorem performs_dispatch
    (performs : Performs part inside (perform script evaluator fuel (script.kindAt machine.cursor)
      (script.tokenAt machine.cursor).position) (observed script verbosity machine)) :
    Performs part inside (dispatch script verbosity evaluator fuel) machine := by
  have read : current script machine = .ok (script.tokenAt machine.cursor) machine := rfl
  have counted : observe verbosity (script.tokenAt machine.cursor) machine =
      .ok () (observed script verbosity machine) := rfl
  exact .later read (.later counted performs)

theorem assignedValue_compound_eq {operator : Token} {mark : Symbol} {compound : BinaryOperator}
    (marked : operator.kind = .symbol mark) (known : BinaryOperator.ofCompound? mark = some compound)
    (old : Value) :
    assignedValue evaluator operator old =
      (evaluator.expression >>= fun operand => applyBinary operator compound old operand) := by
  unfold assignedValue
  rw [marked]
  cases mark <;> cases known <;> rfl

/-- A compound assignment to a variable performs its operator. -/
theorem performs_compound (machine : Machine) {mark : Symbol} {operator : BinaryOperator}
    {binding : Binding} {operand : Value} (named : script.kindAt machine.cursor = .identifier)
    (marked : script.kindAt (machine.cursor + 1) = .symbol mark)
    (compound : BinaryOperator.ofCompound? mark = some operator)
    (bound : machine.scopes.lookup? (script.tokenAt machine.cursor).word = some binding)
    (changeable : binding.constant = false)
    (evaluated : evaluator.expression { machine with cursor := machine.cursor + 2 } =
      .ok operand inside) :
    Performs (applyBinary (script.tokenAt (machine.cursor + 1)) operator binding.value operand) inside
      (preparedAssignment script evaluator (fuel + 1)) machine := by
  have read : advance script machine =
      .ok (script.tokenAt machine.cursor) { machine with cursor := machine.cursor + 1 } :=
    advance_eq (by simp [named])
  have first : bindingOf (script.tokenAt machine.cursor)
      { machine with cursor := machine.cursor + 1 } = .ok binding _ := bindingOf_eq bound
  have plain : indices script evaluator (fuel + 1) { machine with cursor := machine.cursor + 1 } =
      .ok [] { machine with cursor := machine.cursor + 1 } := by
    change (if script.kindAt (machine.cursor + 1) = .symbol .leftBracket then _ else pure [] :
      Exec (List (Token × Value))) _ = _
    rw [marked, if_neg (by cases mark <;> cases compound <;> simp)]
    rfl
  have assigns : (script.tokenAt (machine.cursor + 1)).kind.isAssignment = true := by
    change (script.kindAt (machine.cursor + 1)).isAssignment = true
    rw [marked]
    cases mark <;> cases compound <;> rfl
  have seen : current script { machine with cursor := machine.cursor + 1 } =
      .ok (script.tokenAt (machine.cursor + 1)) { machine with cursor := machine.cursor + 1 } := rfl
  have passed : advance script { machine with cursor := machine.cursor + 1 } =
      .ok (script.tokenAt (machine.cursor + 1)) { machine with cursor := machine.cursor + 2 } :=
    advance_eq (by simp [marked])
  have again : bindingOf (script.tokenAt machine.cursor)
      { machine with cursor := machine.cursor + 2 } = .ok binding _ := bindingOf_eq bound
  have selects : selectElement (script.tokenAt machine.cursor) binding.value []
      { machine with cursor := machine.cursor + 2 } = .ok .named _ := rfl
  have begins : current script { machine with cursor := machine.cursor + 2 } =
      .ok (script.tokenAt (machine.cursor + 2)) { machine with cursor := machine.cursor + 2 } := rfl
  have reads : targetValue binding .named { machine with cursor := machine.cursor + 2 } =
      .ok binding.value _ := rfl
  apply Performs.later read
  apply Performs.later first
  apply Performs.later plain
  apply Performs.later seen
  rw [if_neg (by simp [assigns])]
  apply Performs.later passed
  apply Performs.later again
  rw [if_neg (by simp [changeable])]
  apply Performs.later selects
  apply Performs.later begins
  apply Performs.later reads
  rw [assignedValue_compound_eq marked compound]
  exact .first (.later evaluated .whole)

/-- A statement that is a compound assignment to a variable performs its operator. -/
theorem performs_compound_statement {mark : Symbol} {operator : BinaryOperator} {binding : Binding}
    {operand : Value} (named : script.kindAt machine.cursor = .identifier)
    (marked : script.kindAt (machine.cursor + 1) = .symbol mark)
    (compound : BinaryOperator.ofCompound? mark = some operator)
    (bound : machine.scopes.lookup? (script.tokenAt machine.cursor).word = some binding)
    (changeable : binding.constant = false)
    (evaluated : evaluator.expression
      { observed script verbosity machine with cursor := machine.cursor + 2 } = .ok operand inside) :
    Performs (applyBinary (script.tokenAt (machine.cursor + 1)) operator binding.value operand) inside
      (dispatch script verbosity evaluator (fuel + 1)) machine := by
  apply performs_dispatch
  rw [named]
  have follows : followingKind script (observed script verbosity machine) =
      .ok (script.kindAt (machine.cursor + 1)) (observed script verbosity machine) := rfl
  refine .first (.later follows ?_)
  have assigns : (Kind.symbol mark).isAssignment = true := by
    cases mark <;> cases compound <;> rfl
  rw [marked, if_neg (by cases mark <;> cases compound <;> simp),
    if_neg (by cases mark <;> cases compound <;> simp), if_pos (by simp [assigns])]
  have performs : Performs
      (applyBinary (script.tokenAt (machine.cursor + 1)) operator binding.value operand) inside
      (preparedAssignment script evaluator (fuel + 1)) (observed script verbosity machine) :=
    performs_compound (observed script verbosity machine) named marked compound bound changeable
      evaluated
  exact .first performs

/-- A loop over fixed values asks for the next one. -/
theorem performs_nextOf (name : Token) (type : DeclaredType) (bodyStart : Nat) (values : Iteration)
    (known : Option Nat) :
    Performs (nextOf values) machine
      (traverse script evaluator name type bodyStart (fuel + 1) values known) machine :=
  .first .whole

/-- A loop over fixed values performs what it does behind a round that ends normally. -/
theorem performs_round {name : Token} {type : DeclaredType} {bodyStart : Nat} {values rest : Iteration}
    {value : Value} {known : Option Nat} (next : values.next? = .ok (some (value, rest)))
    (fits : machine.heap.conforms value type = true)
    (ran : iterate script evaluator ⟨[(name.word, ⟨value, some type, false⟩)]⟩ fuel
      { machine with cursor := bodyStart } = .ok .normal middle)
    (performs : Performs part inside
      (traverse script evaluator name type bodyStart fuel rest (known.or (some middle.cursor))) middle) :
    Performs part inside (traverse script evaluator name type bodyStart (fuel + 1) values known)
      machine := by
  have tested : conforms value type machine = .ok true machine := by
    rw [← fits]
    rfl
  have moved : moveTo bodyStart machine = .ok () { machine with cursor := bodyStart } := rfl
  apply Performs.later (Loop.nextOf_of_ok next machine)
  apply Performs.later tested
  rw [if_neg (by decide)]
  apply Performs.later moved
  apply Performs.later ran
  exact .later (Loop.noteEnd_normal known middle) performs

/-- A statement that is a loop over fixed values performs what is done once its header was read. -/
theorem performs_loop {loop : Loop} (loops : script.kindAt machine.cursor = .keyword .forWord)
    (header : loopHeader script evaluator.expression (observed script verbosity machine) =
      .ok loop middle)
    (performs : Performs part inside (traverse script evaluator loop.name loop.type loop.bodyStart
      fuel loop.values none) middle) :
    Performs part inside (dispatch script verbosity evaluator fuel) machine := by
  apply performs_dispatch
  rw [loops, perform, traversal_eq]
  exact .later header performs
end

/-! ## Operators and steps -/

theorem applyBinary_fault {operator : BinaryOperator} {left right : Value} {machine : Machine}
    {fault : Decimal.Fault} (token : Token)
    (out : machine.heap.binary operator left right = .error (.number fault)) :
    applyBinary token operator left right machine =
      .error (.diagnostic ⟨.numberOutOfRange fault, token.position⟩) machine := by
  change located token.position (machine.heap.binary operator left right) machine = _
  rw [out]
  rfl

theorem nextOf_fault {iteration : Iteration} {fault : Decimal.Fault}
    (out : iteration.next? = .error (.fault fault)) (machine : Machine) :
    nextOf iteration machine = .error (.progression fault) machine := by
  unfold nextOf
  rw [out]
  rfl

/-- Comes to the next value of a loop, and reports one that is out of range at the name of the
variable. -/
def reportedStep : Stepping := fun name iteration =>
  match iteration.next? with
  | .ok next => pure next
  | .error (.fault fault) => refuse (.numberOutOfRange fault) name.position
  | .error .tooLong => throw (.limit .memory)

end Exec

/-- Unary operators have a result in range. -/
theorem UnaryOperator.apply_ne_fault (operator : UnaryOperator) (value : Value)
    (fault : Decimal.Fault) : operator.apply value ≠ .error (.number fault) := by
  cases operator <;> cases value <;> exact nofun

theorem Decimal.eq_overflow_of_add {left right : Decimal} {fault : Fault}
    (out : left.add right = .error (.fault fault)) : fault = .overflow := by
  unfold Decimal.add at out
  dsimp only at out
  split at out
  · cases out
  · split at out <;> cases out
    rfl

theorem Decimal.Progression.eq_overflow_of_successor {progression : Progression} {fault : Fault}
    (out : progression.successor = .error (.fault fault)) : fault = .overflow := by
  unfold successor at out
  split at out
  · cases out
  · exact eq_overflow_of_add out

/-- A loop steps by sums, which can only be too large. -/
theorem Iteration.eq_overflow_of_next {iteration : Iteration} {fault : Decimal.Fault}
    (out : iteration.next? = .error (.fault fault)) : fault = .overflow := by
  cases iteration with
  | listed values => cases values <;> cases out
  | counted progression =>
      unfold next? Decimal.Progression.next? at out
      dsimp only at out
      cases formed : progression.successor with
      | error other =>
          rw [formed] at out
          cases out
          exact progression.eq_overflow_of_successor formed
      | ok number =>
          rw [formed] at out
          by_cases reached : progression.reaches number = true
          · simp only [bind, Except.bind, reached, if_true] at out
            cases out
          · simp only [bind, Except.bind, reached] at out
            cases out

/-! ## Loops that report their steps -/

/-- The failures of an execution and of the one whose loops report their steps. -/
def Failure.Reported (script : Script) : Failure → Failure → Prop
  | .progression fault, reported =>
    fault = .overflow ∧ ∃ position, script.Marks position ∧
      reported = .diagnostic ⟨.numberOutOfRange fault, position⟩
  | failure, reported => reported = failure

/-- Executes a script, with loops that report their steps. -/
def Run.reporting (script : Script) (verbosity fuel : Nat) : Run :=
  match Exec.program script (Exec.steppedBy script Exec.reportedStep verbosity fuel) fuel
    .initial with
  | .ok _ machine => ⟨machine, none⟩
  | .error failure machine => ⟨machine, some failure⟩

/-- An execution and the one whose loops report their steps. -/
def Transport.reporting (script : Script) : Transport :=
  itself (Failure.Reported script) fun _ => True

theorem Transport.reporting_steps {script : Script} {name twin : Token}
    (read : (reporting script).Read script .identifier name twin) (iteration : Iteration) :
    (reporting script).Pairs Eq (Exec.nextOf iteration) (Exec.reportedStep twin iteration) := by
  obtain ⟨place, _, -, here⟩ := read.place
  have marks : script.Marks twin.position := ⟨place, by rw [here, read.alike.eq]⟩
  unfold Exec.nextOf Exec.reportedStep
  cases next : iteration.next? with
  | ok value => exact .same value
  | error refusal =>
      cases refusal with
      | fault fault =>
          exact .throw ⟨Iteration.eq_overflow_of_next next, twin.position, marks, rfl⟩
      | tooLong => exact .throw rfl

namespace Run

/-- Reporting its steps changes nothing about an execution but how it fails if a step does. -/
theorem reporting_same (script : Script) (verbosity fuel : Nat) :
    (reporting script verbosity fuel).machine = (ofScript script verbosity fuel).machine ∧
      Option.Rel (Failure.Reported script) (ofScript script verbosity fuel).failure
        (reporting script verbosity fuel).failure := by
  have laws : (Transport.reporting script).Laws script script :=
    Transport.itself_laws Scopes.lasting_true (fun _ => rfl) (fun _ => rfl) rfl rfl
  have calls : Transport.Calls fun _ : Unit => Transport.reporting script :=
    Transport.itself_calls Scopes.lasting_true
  have evaluators := calls.evaluators (fun _ => laws) Transport.reporting_steps
    (fun related _ => Transport.itself_counted verbosity related) fuel ()
  have start : (Transport.reporting script).machines .initial .initial := ⟨rfl, trivial⟩
  have outcomes := laws.program evaluators (fun same => congrArg script.kindAt same.symm) fuel start
  unfold reporting ofScript
  generalize Exec.program script (Exec.evaluator script verbosity fuel) fuel _ = outcome
    at outcomes ⊢
  generalize Exec.program script (Exec.steppedBy script Exec.reportedStep verbosity fuel) fuel _ =
    twin at outcomes ⊢
  cases outcomes with
  | succeeded _ related =>
      obtain ⟨rfl, -⟩ := related
      exact ⟨rfl, .none⟩
  | failed reported related =>
      obtain ⟨rfl, -⟩ := related
      exact ⟨rfl, .some reported⟩
  | excused ends => exact ends.elim

/-! ## Runs -/

/-- Some part of a run is performed on a machine inside it. -/
def Performs {β : Type} (script : Script) (verbosity fuel : Nat) (part : Exec β) (inside : Machine) :
    Prop :=
  Exec.Performs part inside (Exec.program script (Exec.evaluator script verbosity fuel) fuel)
    .initial

/-- A run performs what a statement does that it comes to. -/
theorem performs_executed {β : Type} {script : Script} {verbosity fuel count : Nat} {part : Exec β}
    {inside machine : Machine} (fewer : count ≤ fuel)
    (executed : Exec.Executed (Exec.statement script verbosity (fuel + 1))
      (Exec.followedInProgram script) .initial count machine)
    (proper : script.kindAt machine.cursor ≠ .endOfInput)
    (performs : Exec.Performs part inside
      (Exec.dispatch script verbosity (Exec.evaluator script verbosity fuel) fuel) machine) :
    Performs script verbosity (fuel + 1) part inside := by
  obtain ⟨rounds, same⟩ : ∃ rounds, fuel + 1 = rounds + 1 + count := ⟨fuel - count, by omega⟩
  have performed : Exec.Performs part inside (Exec.program script
      (Exec.evaluator script verbosity (fuel + 1)) (rounds + 1 + count)) .initial :=
    Exec.performs_executed executed proper performs
  rwa [← same] at performed

theorem failure_of_performs {β : Type} {script : Script} {verbosity fuel : Nat} {part : Exec β}
    {inside after : Machine} {failure : Failure}
    (performs : Performs script verbosity fuel part inside)
    (failed : part inside = .error failure after) :
    (ofScript script verbosity fuel).failure = some failure := by
  obtain ⟨final, ended⟩ := Exec.Performs.failed performs failed
  unfold ofScript
  rw [ended]

/-- Numbers out of range. If a binary operator comes to one anywhere in a run, be it in an expression,
in a compound assignment or in `++` and `--`, the run fails with a diagnostic that names the fault and
stands at a token, and unary operators never come to one. If a counting loop steps to one, it is too
large, and the run fails without a diagnostic. Nothing else fails so: with loops that report their
steps, each run ends on the same machine, and fails with a diagnostic at a token where it fails without
one because of a step, and otherwise in the same way. -/
theorem number_faults (script : Script) (verbosity fuel : Nat) :
    (∀ token operator left right inside fault,
      Performs script verbosity fuel (Exec.applyBinary token operator left right) inside →
      inside.heap.binary operator left right = .error (.number fault) →
        (ofScript script verbosity fuel).failure =
            some (.diagnostic ⟨.numberOutOfRange fault, token.position⟩) ∧
          script.Marks token.position) ∧
      (∀ fault, (Cause.numberOutOfRange fault).category = .value ∧
        (Cause.numberOutOfRange fault).message =
          "Numeric result out of range (" ++ fault.word ++ ")") ∧
      (∀ (operator : UnaryOperator) value fault, operator.apply value ≠ .error (.number fault)) ∧
      (∀ iteration inside fault,
        Performs script verbosity fuel (Exec.nextOf iteration) inside →
        iteration.next? = .error (.fault fault) →
          fault = .overflow ∧
            (ofScript script verbosity fuel).failure = some (.progression fault)) ∧
      (reporting script verbosity fuel).machine = (ofScript script verbosity fuel).machine ∧
      Option.Rel (Failure.Reported script) (ofScript script verbosity fuel).failure
        (reporting script verbosity fuel).failure := by
  refine ⟨?_, fun _ => ⟨rfl, rfl⟩, UnaryOperator.apply_ne_fault, ?_,
    reporting_same script verbosity fuel⟩
  · intro token operator left right inside fault performs out
    have failed := failure_of_performs performs (Exec.applyBinary_fault token out)
    exact ⟨failed, marks_of_failure failed⟩
  · intro iteration inside fault performs out
    exact ⟨Iteration.eq_overflow_of_next out,
      failure_of_performs performs (Exec.nextOf_fault out inside)⟩

/-- A number that is squared once too often. -/
theorem performs_square_out_of_range :
    let large : Decimal := ⟨false, 1, 6144 * 2 ^ 47⟩
    let script := Script.ofSource
      "p: number = \"1e6144\" as number\nfor (k: number in 1..47) p *= p\np *= p".toList
    ∃ inside,
      Performs script 0 60
        (Exec.applyBinary (script.tokenAt 21) .mul (.number large) (.number large)) inside ∧
      inside.heap.binary .mul (.number large) (.number large) = .error (.number .overflow) := by
  intro large script
  let first := Exec.finalOf (Exec.statement script 0 60 .initial)
  let second := Exec.finalOf (Exec.statement script 0 60 first)
  let inside := Exec.finalOf (Exec.expression script 0 59
    { Exec.observed script 0 second with cursor := second.cursor + 2 })
  have facts : script.kindAt 0 ≠ .endOfInput ∧ script.kindAt first.cursor ≠ .endOfInput ∧
      script.kindAt 20 = .identifier ∧ script.kindAt 21 = .symbol .asteriskEqual ∧
      Exec.statement script 0 60 .initial = .ok .normal first ∧
      Exec.statement script 0 60 first = .ok .normal second ∧ second.cursor = 20 ∧
      second.scopes.lookup? (script.tokenAt second.cursor).word =
        some ⟨.number large, some (.simple "number"), false⟩ ∧
      Exec.expression script 0 59
        { Exec.observed script 0 second with cursor := second.cursor + 2 } =
          .ok (.number large) inside ∧
      inside.heap.binary .mul (.number large) (.number large) =
        .error (.number .overflow) := by decide +kernel
  obtain ⟨start, between, name, operator, ranFirst, ranSecond, place, bound, evaluated, out⟩ :=
    facts
  clear_value first second inside
  have executed : Exec.Executed (Exec.statement script 0 60) (Exec.followedInProgram script) .initial 2
      second := .next (.next .start ranFirst start) ranSecond between
  have performs : Performs script 0 (59 + 1) (Exec.applyBinary (script.tokenAt (second.cursor + 1))
      .mul (.number large) (.number large)) inside :=
    performs_executed (by decide) executed (by rw [place, name]; simp)
      (Exec.performs_compound_statement (by rw [place]; exact name)
        (by rw [place]; exact operator) rfl bound rfl evaluated)
  rw [place] at performs
  exact ⟨inside, performs, out⟩

/-- A loop that runs once at the largest exponent and then asks for the next number. -/
theorem performs_step_out_of_range :
    let script := Script.ofSource ("p: number = 1\nfor (k: number in 1..18) " ++
      "p = p * p * p * p * p * p * p * p * p * p * (\"1e9\" as number)\n" ++
      "for (i: number in 9 * p..9 * p..p) println(\"in\")").toList
    ∃ values inside,
      Performs script 0 30 (Exec.nextOf values) inside ∧ values.next? = .error (.fault .overflow) := by
  intro script
  let largest : Decimal := ⟨false, 1, 999999999999999999⟩
  let nine : Decimal := ⟨false, 9, 999999999999999999⟩
  let first := Exec.finalOf (Exec.statement script 0 30 .initial)
  let second := Exec.finalOf (Exec.statement script 0 30 first)
  let opened := Exec.finalOf (Exec.loopHeader script (Exec.expression script 0 29)
    (Exec.observed script 0 second))
  let loop : Exec.Loop :=
    ⟨script.tokenAt 44, .simple "number", .counted (.start nine nine largest), 58⟩
  let scope : Scope := ⟨[(loop.name.word, ⟨.number nine, some loop.type, false⟩)]⟩
  let inside := Exec.finalOf
    (Exec.iterate script (Exec.evaluator script 0 29) scope 28 { opened with cursor := 58 })
  let values : Iteration := .counted ⟨nine, nine, largest, some nine⟩
  have facts : script.kindAt 0 ≠ .endOfInput ∧ script.kindAt first.cursor ≠ .endOfInput ∧
      script.kindAt 42 = .keyword .forWord ∧
      loop.values.next? = .ok (some (.number nine, values)) ∧
      values.next? = .error (.fault .overflow) ∧
      Exec.statement script 0 30 .initial = .ok .normal first ∧
      Exec.statement script 0 30 first = .ok .normal second ∧ second.cursor = 42 ∧
      Exec.loopHeader script (Exec.expression script 0 29) (Exec.observed script 0 second) =
        .ok loop opened ∧
      opened.heap.conforms (.number nine) loop.type = true ∧
      Exec.iterate script (Exec.evaluator script 0 29) scope 28 { opened with cursor := 58 } =
        .ok .normal inside := by decide +kernel
  obtain ⟨start, between, loops, next, out, ranFirst, ranSecond, place, header, fits, ran⟩ := facts
  clear_value first second opened inside
  have executed : Exec.Executed (Exec.statement script 0 30) (Exec.followedInProgram script) .initial 2
      second := .next (.next .start ranFirst start) ranSecond between
  have performs : Performs script 0 (29 + 1) (Exec.nextOf values) inside :=
    performs_executed (by decide) executed (by rw [place, loops]; simp)
      (Exec.performs_loop (by rw [place]; exact loops) header
        (Exec.performs_round next fits ran (Exec.performs_nextOf ..)))
  exact ⟨values, inside, performs, out⟩

/-- A number that is squared once too often, and a loop that runs once at the largest exponent and then
steps beyond it. -/
theorem number_faults_at_largest_exponent :
    let large : Decimal := ⟨false, 1, 6144 * 2 ^ 47⟩
    let squared := Script.ofSource
      "p: number = \"1e6144\" as number\nfor (k: number in 1..47) p *= p\np *= p".toList
    let stepped := Script.ofSource ("p: number = 1\nfor (k: number in 1..18) " ++
      "p = p * p * p * p * p * p * p * p * p * p * (\"1e9\" as number)\n" ++
      "for (i: number in 9 * p..9 * p..p) println(\"in\")").toList
    (∃ inside,
      Performs squared 0 60
        (Exec.applyBinary (squared.tokenAt 21) .mul (.number large) (.number large)) inside ∧
      inside.heap.binary .mul (.number large) (.number large) = .error (.number .overflow) ∧
      (ofScript squared 0 60).failure =
        some (.diagnostic ⟨.numberOutOfRange .overflow, (squared.tokenAt 21).position⟩)) ∧
    ∃ values inside,
      Performs stepped 0 30 (Exec.nextOf values) inside ∧
      values.next? = .error (.fault .overflow) ∧
      (ofScript stepped 0 30).failure = some (.progression .overflow) := by
  intro large squared stepped
  obtain ⟨inside, performs, out⟩ := performs_square_out_of_range
  obtain ⟨values, within, performed, beyond⟩ := performs_step_out_of_range
  exact ⟨⟨inside, performs, out, ((number_faults squared 0 60).1 _ _ _ _ _ _ performs out).1⟩,
    values, within, performed, beyond,
    ((number_faults stepped 0 30).2.2.2.1 _ _ _ performed beyond).2⟩

/-- A loop that runs once at the largest exponent and then steps beyond it. -/
theorem step_out_of_range_unreported :
    let script := Script.ofSource ("p: number = 1\nfor (k: number in 1..18) " ++
      "p = p * p * p * p * p * p * p * p * p * p * (\"1e9\" as number)\n" ++
      "for (i: number in 9 * p..9 * p..p) println(\"in\")").toList
    (ofScript script 0 30).failure = some (.progression .overflow) ∧
      (ofScript script 0 30).machine.written = "in\n" := by
  decide +kernel

end Run

end Onepass
