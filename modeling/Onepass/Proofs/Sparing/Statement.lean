import Onepass.Proofs.Extent.Simple
import Onepass.Proofs.Sparing.Expression
import Onepass.Proofs.Typing.Statement

/-! # Failed statements

A statement that prints, declares, assigns or returns changes the machine last: everything that can go
wrong is behind it by then. So when such a statement fails, it has read tokens and perhaps made arrays
that nobody can reach, and the scopes, the arrays, the functions, the calls and the output are as they
were, unless a function was called in one of its expressions.
-/

set_option autoImplicit false

namespace Onepass

namespace Exec

variable {α β : Type} (script : Script)

/-! ## Sparing actions -/

/-- If the action fails on the machine, it moved on, and spared the machine if it called no function. -/
def Spares (action : Exec α) (machine : Machine) : Prop :=
  ∀ ⦃failure final⦄, action machine = .error failure final → script.Passed machine final

/-- The action fails on no machine. -/
def Infallible (action : Exec α) : Prop :=
  ∀ machine failure final, action machine ≠ .error failure final

variable {script} {machine : Machine} {evaluator : Evaluator}

theorem Calm.spares {action : Exec α} (calm : Calm script machine (action machine)) :
    Spares script action machine := by
  intro failure final failed
  have passed := calm.passed
  rwa [failed] at passed

/-- What succeeds and passes goes before, wherever it ends. -/
theorem Spares.after {action : Exec α} {next : α → Exec β} {value : α} {middle : Machine}
    (ran : action machine = .ok value middle) (passed : script.Passed machine middle)
    (rest : Spares script (next value) middle) : Spares script (action >>= next) machine := by
  intro failure final failed
  rw [bind_of_ok ran] at failed
  exact passed.trans (rest failed)

/-- A calm action goes before one that spares the machine. -/
theorem Spares.bind {action : Exec α} {next : α → Exec β} (calm : Calm script machine (action machine))
    (rest : ∀ value middle, action machine = .ok value middle → script.Unqualified middle.cursor →
      Spares script (next value) middle) : Spares script (action >>= next) machine := by
  intro failure final failed
  have passed := calm.passed
  cases ran : action machine with
  | ok value middle =>
      rw [ran] at passed
      exact Spares.after ran passed (rest value middle ran (calm.ends ran)) failed
  | error other middle =>
      rw [bind_of_error ran] at failed
      cases failed
      rwa [ran] at passed

/-- If nothing that follows can fail, the first part failed. -/
theorem error_of_infallible {action : Exec α} {next : α → Exec β} {failure : Failure}
    {final : Machine} (safe : ∀ value, Infallible (next value))
    (failed : (action >>= next) machine = .error failure final) :
    action machine = .error failure final := by
  cases ran : action machine with
  | ok value middle =>
      rw [bind_of_ok ran] at failed
      exact absurd failed (safe value middle failure final)
  | error other middle =>
      rw [bind_of_error ran] at failed
      cases failed
      rfl

theorem Spares.finally {action : Exec α} {next : α → Exec β} (spares : Spares script action machine)
    (safe : ∀ value, Infallible (next value)) : Spares script (action >>= next) machine :=
  fun _ _ failed => spares (error_of_infallible safe failed)

theorem Spares.guarded {condition : Prop} [Decidable condition] {cause : Cause} {position : Position}
    {next : Unit → Exec β} (rest : Spares script (next ()) machine) :
    Spares script (if condition then refuse cause position >>= next else next ()) machine := by
  split
  · intro failure final refused
    cases refused
    exact .refl machine
  · exact rest

namespace Infallible

theorem bind {action : Exec α} {next : α → Exec β} (first : Infallible action)
    (rest : ∀ value, Infallible (next value)) : Infallible (action >>= next) := by
  intro machine failure final failed
  cases ran : action machine with
  | ok value middle =>
      rw [bind_of_ok ran] at failed
      exact rest value middle failure final failed
  | error other middle => exact first machine other middle ran

theorem pure (value : α) : Infallible (Pure.pure value : Exec α) := by
  rintro _ _ _ ⟨⟩

theorem changing (change : Machine → Machine) : Infallible (modify change : Exec Unit) := by
  rintro _ _ _ ⟨⟩

theorem store (name : Token) (target : Target) (value : Value) :
    Infallible (Exec.store name target value) := by
  cases target <;> exact changing _

theorem acceptSemicolon (script : Script) : Infallible (Exec.acceptSemicolon script) := by
  intro machine failure final failed
  rw [acceptSemicolon_eq] at failed
  cases failed

end Infallible

/-- A simple statement that fails does so before its end is read. -/
theorem error_of_simple {action : Exec Unit} {failure : Failure} {final : Machine}
    (failed : simple script action machine = .error failure final) :
    action machine = .error failure final :=
  error_of_infallible (fun _ => (Infallible.acceptSemicolon script).bind fun _ => .pure _) failed

/-- A value is given element types only after it was checked. -/
theorem Spares.adopt (value : Value) (expected : Option DeclaredType) (position : Position)
    (start : script.Unqualified machine.cursor) :
    Spares script (Exec.adopt value expected position) machine := by
  unfold Exec.adopt
  cases expected with
  | none => exact (Quiet.pure () machine start).spares
  | some type =>
      have checks := (Quiet.looking (unchanged.checkAssigned value type position) machine start).spares
      exact checks.finally fun _ => .changing _

/-! ## Parts of statements -/

theorem printedValues_quiet (quiet : Quiet script evaluator.expression) (fuel : Nat) :
    Quiet script (printedValues script evaluator fuel) := by
  induction fuel with
  | zero => exact .throw _
  | succ fuel ih =>
      unfold printedValues
      refine (Quiet.looking (unchanged.currentKind script)).bind fun found => ?_
      split
      · exact .pure _
      · exact .looking (unchanged.refuseToken script _)
      · refine quiet.bind fun value => ?_
        refine (Quiet.looking (unchanged.printed value)).bind fun text => ?_
        refine (Quiet.accept rfl).bind fun _ => ?_
        exact ih.bind fun _ => .pure _

theorem readType_quiet : Quiet script (readType script) := by
  intro machine start
  change Calm script machine ((ofDiagnosed (script.typeAt machine.cursor) >>= fun type => _) machine)
  cases found : script.typeAt machine.cursor with
  | error diagnostic => exact ⟨.refl machine, nofun⟩
  | ok type =>
      have plain : (script.kindAt machine.cursor).qualifies = false :=
        Kind.unqualifying Kind.isType (Script.typeAt_ok found) (by decide) (by decide)
      exact (Calm.advance start plain).bind fun _ middle _ => Quiet.pure type middle

theorem initializer_quiet (quiet : Quiet script evaluator.expression) (type : DeclaredType)
    (fuel : Nat) : Quiet script (initializer script evaluator type fuel) := by
  unfold initializer
  split
  · exact quiet
  · refine (Quiet.looking (unchanged.currentKind script)).bind fun found => ?_
    split
    · exact declaredArray_quiet quiet fuel _ _
    · exact quiet

theorem indices_quiet (quiet : Quiet script evaluator.expression) (fuel : Nat) :
    Quiet script (indices script evaluator fuel) := by
  induction fuel with
  | zero => exact .throw _
  | succ fuel ih =>
      unfold indices
      refine Quiet.kind fun machine start => ?_
      split
      case _ known =>
        refine (Calm.advance start (by rw [known]; rfl)).bind fun _ middle _ => ?_
        refine (Quiet.looking (unchanged.current script)).bind (fun token => ?_) middle
        refine quiet.bind fun index => ?_
        refine (Quiet.expectSymbol rfl).bind fun _ => ?_
        exact ih.bind fun _ => .pure _
      case _ => exact Quiet.pure [] machine start

theorem assignedValue_quiet (quiet : Quiet script evaluator.expression) (operator : Token)
    (old : Value) : Quiet script (assignedValue evaluator operator old) := by
  unfold assignedValue
  split
  · exact .looking (unchanged.applyBinary operator _ old _)
  · exact .looking (unchanged.applyBinary operator _ old _)
  · split
    · exact quiet.bind fun operand => .looking (unchanged.applyBinary operator _ old operand)
    · exact quiet
  · exact quiet

theorem returnedValue_quiet (quiet : Quiet script evaluator.expression) (function : Function)
    (keyword : Token) : Quiet script (returnedValue script evaluator function keyword) := by
  refine (Quiet.looking (unchanged.current script)).bind fun first => ?_
  refine (Quiet.looking unchanged.get).bind fun state => ?_
  split
  · refine quiet.bind fun value => ?_
    refine (Quiet.looking (unchanged.conforms value _)).bind fun fits => ?_
    split
    · exact .pure _
    · exact (Quiet.looking (unchanged.describe value)).bind fun _ => .refuse _ _
  · split
    · exact .pure _
    · exact .refuse _ _

/-! ## Simple statements -/

theorem printValues_spares (quiet : Quiet script evaluator.expression) (fuel : Nat)
    (proper : script.kindAt machine.cursor ≠ .endOfInput)
    (plain : (script.kindAt machine.cursor).qualifies = false) :
    Spares script (printValues script evaluator fuel) machine := by
  refine .bind (.read proper plain) fun keyword opening _ start => ?_
  refine .bind (Quiet.expectSymbol rfl opening start) fun _ inside _ start => ?_
  refine .bind (printedValues_quiet quiet fuel inside start) fun text closing _ start => ?_
  exact (Quiet.expectSymbol rfl closing start).spares.finally fun _ => .changing _

/-- Looking for a token never fails, and reads at most that token. -/
theorem accept_passes (script : Script) {kind : Kind} (proper : kind ≠ .endOfInput)
    (machine : Machine) :
    ∃ accepted middle, accept script kind machine = .ok accepted middle ∧
      script.Passed machine middle := by
  by_cases there : script.kindAt machine.cursor = kind
  · exact ⟨_, _, accept_of_there there proper, .moved (Nat.le_succ _)⟩
  · exact ⟨_, _, accept_of_absent there, .refl machine⟩

theorem declaredVariable_spares (quiet : Quiet script evaluator.expression) (fuel : Nat)
    (machine : Machine) : Spares script (declaredVariable script evaluator fuel) machine := by
  have proper : Kind.symbol .dollar ≠ .endOfInput := by simp
  obtain ⟨constant, named, accepted, passed⟩ := accept_passes script proper machine
  refine .after accepted passed ?_
  refine .bind (.expect (by simp) rfl named) fun name behind _ start => ?_
  refine .bind (Quiet.looking unchanged.get behind start) fun state behind _ start => ?_
  refine Spares.guarded ?_
  refine .bind (Quiet.expectSymbol rfl behind start) fun _ typed _ start => ?_
  refine .bind (readType_quiet typed start) fun type equal _ start => ?_
  refine Spares.guarded ?_
  refine .bind (Quiet.expectSymbol rfl equal start) fun _ given _ start => ?_
  refine .bind (Quiet.looking (unchanged.current script) given start) fun first given _ start => ?_
  refine .bind (initializer_quiet quiet type fuel given start) fun value checked _ start => ?_
  exact (Spares.adopt value _ _ start).finally fun _ => .pure _

theorem preparedAssignment_spares (quiet : Quiet script evaluator.expression) (fuel : Nat)
    (named : script.kindAt machine.cursor = .identifier) :
    Spares script (preparedAssignment script evaluator fuel) machine := by
  refine .bind (.read (by simp [named]) (by rw [named]; rfl)) fun name indexed _ start => ?_
  refine .bind (Quiet.looking (unchanged.bindingOf name) indexed start) fun _ indexed _ start => ?_
  refine .bind (indices_quiet quiet fuel indexed start) fun selected ready _ start => ?_
  change Spares script (if (!(script.kindAt ready.cursor).isAssignment &&
    !(script.kindAt ready.cursor).isStep) = true then _ else _) ready
  split
  case _ => exact .bind (Quiet.refuse _ _ ready start) fun _ _ refused => absurd refused refuse_ne_ok
  case _ operates =>
    have plain : (script.kindAt ready.cursor).qualifies = false :=
      Kind.unqualifying (fun kind => !kind.isAssignment && !kind.isStep)
        (Bool.eq_false_iff.mpr operates) (by decide) (by decide)
    refine .bind (.advance start plain) fun operator given _ start => ?_
    refine .bind (Quiet.looking (unchanged.bindingOf name) given start) fun binding given _ start => ?_
    refine Spares.guarded ?_
    refine .bind (Quiet.looking (unchanged.selectElement name binding.value selected) given start)
      fun target given _ start => ?_
    refine .bind (Quiet.looking (unchanged.current script) given start) fun first given _ start => ?_
    refine .bind (Quiet.looking (unchanged.targetValue binding target) given start)
      fun old given _ start => ?_
    refine .bind (assignedValue_quiet quiet _ old given start) fun value checked _ start => ?_
    refine .bind (Quiet.looking unchanged.get checked start) fun state checked _ start => ?_
    exact (Spares.adopt value _ _ start).finally fun _ => .pure _

theorem returnFrom_spares (quiet : Quiet script evaluator.expression)
    (returns : script.kindAt machine.cursor = .keyword .returnWord) :
    Spares script (returnFrom script evaluator) machine := by
  refine .bind (.read (by simp [returns]) (by rw [returns]; rfl)) fun keyword behind _ start => ?_
  refine .bind (Quiet.looking unchanged.get behind start) fun state behind _ start => ?_
  split
  · exact (Quiet.refuse _ _ behind start).spares
  · refine Spares.finally (returnedValue_quiet quiet _ keyword behind start).spares fun value => ?_
    refine (Infallible.changing _).bind fun _ => ?_
    refine (Infallible.changing _).bind fun _ => ?_
    exact (Infallible.acceptSemicolon script).bind fun _ => .pure _

/-! ## Declarations of functions -/

/-- Moving the cursor spares the machine. -/
theorem sparing : Moving Machine.Spared where
  refl := .refl
  trans := .trans
  moved _ _ := ⟨rfl, rfl, rfl, rfl, rfl, rfl, List.prefix_rfl⟩

theorem register_error {function : Function} {position : Position} {failure : Failure}
    {final : Machine} (failed : register function position machine = .error failure final) :
    final = machine := by
  change (if (machine.functions.lookup? function.name).any (·.start == function.start) = true
    then pure () else _ : Exec Unit) machine = _ at failed
  split at failed
  · cases failed
  · cases extended : machine.functions.register? function with
    | some functions => rw [extended] at failed; cases failed
    | none => rw [extended] at failed; cases failed; rfl

/-- A function is declared without a look at its body, whatever that calls. -/
theorem functionDeclaration_spares {fuel : Nat} {failure : Failure} {final : Machine}
    (failed : functionDeclaration script fuel machine = .error failure final) :
    machine.Spared final := by
  rw [functionDeclaration_eq] at failed
  have spared := sparing.declaredFunction script fuel machine
  cases ran : declaredFunction script fuel machine with
  | ok read middle =>
      rw [bind_of_ok ran] at failed
      rw [ran] at spared
      rw [register_error failed]
      exact spared
  | error other middle =>
      rw [bind_of_error ran] at failed
      cases failed
      rwa [ran] at spared

end Exec

/-- The statement at a place prints, returns, declares or assigns. -/
inductive Script.Simple (script : Script) (place : Nat) : Prop
  | prints (begins : script.kindAt place = .keyword .printWord ∨
      script.kindAt place = .keyword .printlnWord)
  | returns (begins : script.kindAt place = .keyword .returnWord)
  | declaresFunction (begins : script.kindAt place = .keyword .funcWord)
  | declaresVariable (declares : script.declaresVariable place)
  | assigns (assigns : script.assigns place)

namespace Exec

variable {script : Script} {evaluator : Evaluator} {machine final : Machine} {failure : Failure}

/-- A simple statement that is no declaration of a function spares the machine when it fails. -/
theorem dispatch_spares (quiet : Quiet script evaluator.expression) {verbosity fuel : Nat}
    (simple : script.Simple machine.cursor)
    (other : script.kindAt machine.cursor ≠ .keyword .funcWord)
    (failed : dispatch script verbosity evaluator fuel machine = .error failure final) :
    script.Passed (observed script verbosity machine) final := by
  cases simple with
  | prints begins =>
      have prints (keyword : Keyword) (known : script.kindAt machine.cursor = .keyword keyword) :
          Spares script (printValues script evaluator fuel) (observed script verbosity machine) :=
        printValues_spares quiet fuel (known ▸ by simp) (known ▸ rfl)
      rw [dispatch_eq] at failed
      rcases begins with known | known
      · rw [known] at failed
        exact prints _ known (error_of_simple failed)
      · rw [known] at failed
        exact prints _ known (error_of_simple failed)
  | returns begins =>
      have returns : Spares script (returnFrom script evaluator) (observed script verbosity machine) :=
        returnFrom_spares quiet begins
      rw [dispatch_eq, begins] at failed
      exact returns failed
  | declaresFunction begins => exact absurd begins other
  | declaresVariable declares =>
      have declared : Spares script (variableDeclaration script evaluator fuel)
          (observed script verbosity machine) :=
        (declaredVariable_spares quiet fuel _).finally fun _ => .changing _
      rw [Discipline.dispatch_declaration script declares] at failed
      exact declared (error_of_simple failed)
  | assigns assigns =>
      have named : script.kindAt (observed script verbosity machine).cursor = .identifier := assigns.1
      have assigned : Spares script (assignment script evaluator fuel)
          (observed script verbosity machine) :=
        (preparedAssignment_spares quiet fuel named).finally fun _ => .store _ _ _
      rw [dispatch_assignment script evaluator verbosity fuel assigns] at failed
      exact assigned (error_of_simple failed)

/-- A failed simple statement changes nothing. Whatever the machine, if a statement that prints, declares,
assigns or returns fails, at whatever point, and no function is called among the tokens that it read,
then the scopes with all values, the elements and the element types of all arrays that there were, the
functions, the calls with the value returned last and the output are as before. A declaration of a function has no expressions, so
nothing is asked of it. -/
theorem failed_statement_spares (script : Script) (verbosity fuel : Nat) (machine final : Machine)
    (failure : Failure) (simple : script.Simple machine.cursor)
    (failed : statement script verbosity fuel machine = .error failure final)
    (free : script.kindAt machine.cursor = .keyword .funcWord ∨
      script.CallFree machine.cursor final.cursor) : machine.Spared final := by
  cases fuel with
  | zero =>
      cases failed
      exact .refl machine
  | succ fuel =>
      have counted : machine.Spared (observed script verbosity machine) :=
        ⟨rfl, rfl, rfl, rfl, rfl, rfl, List.prefix_rfl⟩
      change dispatch script verbosity (Exec.evaluator script verbosity fuel) fuel machine = _ at failed
      by_cases declares : script.kindAt machine.cursor = .keyword .funcWord
      · rw [dispatch_eq, declares] at failed
        exact counted.trans (functionDeclaration_spares (error_of_simple failed))
      · have passed := dispatch_spares (expression_quiet script verbosity fuel) simple declares failed
        exact counted.trans (passed.spared (free.resolve_left declares))

/-- An element is assigned an array that was made for it and does not conform: the array that was
there keeps its elements, and the new one is left over. -/
theorem failed_assignment_leaves_array :
    let script := Script.ofSource "a: number[] = [1, 2] a[a.length - 1] = [\"x\"]".toList
    let machine := finalOf (statement script 0 30 .initial)
    let final := finalOf (statement script 0 30 machine)
    statement script 0 30 machine =
        .error (.diagnostic ⟨.assignmentMismatch ⟨"string", 1⟩ ⟨"number", 0⟩, ⟨1, 40⟩⟩) final ∧
      final.heap.size = machine.heap.size + 1 ∧ machine.Spared final := by
  intro script machine final
  have failed : statement script 0 30 machine =
      .error (.diagnostic ⟨.assignmentMismatch ⟨"string", 1⟩ ⟨"number", 0⟩, ⟨1, 40⟩⟩) final := by
    decide +kernel
  have ends : final.cursor ≤ 30 := by decide +kernel
  have free : ∀ place < 30, ¬ script.Calls place := by decide +kernel
  have assigns : script.assigns machine.cursor := by
    refine ⟨by decide +kernel, by decide +kernel⟩
  refine ⟨failed, by decide +kernel, ?_⟩
  exact failed_statement_spares script 0 30 machine final _ (.assigns assigns) failed
    (.inr fun place _ before => free place (Nat.lt_of_lt_of_le before ends))

end Exec

end Onepass
