import Onepass.Proofs.Fuel
import Onepass.Proofs.Isolation
import Onepass.Proofs.Signals
import Onepass.Proofs.Typing.Binding
import Onepass.Proofs.Watch

/-! # What calls give

A call evaluates its arguments from left to right among the names of the caller, checks their number and
their types, and then executes the body of the function. Its result is that of the `return` statement
which ends the body: the machine holds its value, and however many blocks, branches and loops the
statement stands in, all that follows it passes the signal on or tidies up, and no call inside the body
comes between. Only a function that declares no result may do without such a statement, and then the
result is null.

That the body comes to such a statement is said by giving up before it: the execution which does so does
not get to the end of the body.
-/

set_option autoImplicit false

namespace Onepass

open Machine (ControlKept Shares)

theorem Machine.Shares.trans {first middle last : Machine} (start : first.Shares middle)
    (rest : middle.Shares last) : first.Shares last where
  globals := start.globals.trans rest.globals
  functions := start.functions.trans rest.functions
  heap := start.heap.trans rest.heap
  output := start.output.trans rest.output
  depth := start.depth.trans rest.depth

/-- A return from a call: the function and the calls around it, the value, and a machine that shows what
all calls share when the body is left. -/
structure Return where
  function : Function
  callers : List Function
  value : Value
  last : Machine

/-- The frames inside the call. -/
def Return.frames (wanted : Return) : List Function :=
  wanted.function :: wanted.callers

/-- The machine holds the value, and nothing of what all calls share is changed before the body is
left. -/
structure Return.Made (wanted : Return) (machine : Machine) : Prop where
  value : machine.returned = wanted.value
  shares : machine.Shares wanted.last

namespace Exec

variable {α : Type} {wanted : Return}

/-! ## Actions without a certain return -/

/-- The action does not return in this way from the call that it is started in. -/
def Avoids (wanted : Return) (action : Exec Signal) : Prop :=
  ∀ machine final, machine.frames = wanted.frames →
    action machine = .ok .returning final → ¬ wanted.Made final

namespace Avoids

theorem never {action : Exec Signal}
    (other : ∀ machine final, action machine ≠ .ok .returning final) : Avoids wanted action :=
  fun machine final _ ran => absurd ran (other machine final)

theorem pure {signal : Signal} (other : signal ≠ .returning) : Avoids wanted (Pure.pure signal) :=
  never fun _ _ ran => other (pure_ok ran).1.symm

theorem throw (failure : Failure) : Avoids wanted (MonadExcept.throw failure) :=
  never fun _ _ => throw_ne_ok

/-- After a refusal nothing else is done. -/
theorem stopped (cause : Cause) (position : Position) (next : α → Exec Signal) :
    Avoids wanted (Exec.refuse cause position >>= next) := by
  refine never fun machine final ran => ?_
  obtain ⟨_, _, refused, -⟩ := bind_ok ran
  exact refuse_ne_ok refused

theorem bind {action : Exec α} {next : α → Exec Signal} (kept : Keeps (ControlKept []) action)
    (rest : ∀ value, Avoids wanted (next value)) : Avoids wanted (action >>= next) := by
  intro machine final frames ran
  obtain ⟨given, middle, first, ran⟩ := bind_ok ran
  exact rest given _ _ ((kept.ok first).frames.trans frames) ran

/-- What follows an action leaves everything as it is if the action returns. -/
theorem followed {action : Exec Signal} {next : Signal → Exec Signal} (avoids : Avoids wanted action)
    (kept : KeepsControl action)
    (passed : ∀ machine, next .returning machine = .ok .returning machine)
    (others : ∀ signal, signal ≠ .returning → Avoids wanted (next signal)) :
    Avoids wanted (action >>= next) := by
  intro machine final frames ran
  obtain ⟨signal, middle, first, ran⟩ := bind_ok ran
  by_cases returned : signal = .returning
  · subst returned
    rw [passed] at ran
    cases ran
    exact avoids _ _ frames first
  · obtain ⟨added, control⟩ := kept.ok first
    exact others signal returned _ _ (control.frames.trans frames) ran

/-- Another action follows one that ended normally; any other signal is handed on. -/
theorem unlessNormal {action : Exec Signal} {next : Signal → Exec Signal} (avoids : Avoids wanted action)
    (kept : KeepsControl action) (normal : Avoids wanted (next .normal))
    (breaking : next .breaking = Pure.pure .breaking)
    (continuing : next .continuing = Pure.pure .continuing)
    (passed : next .returning = Pure.pure .returning) :
    Avoids wanted (action >>= next) := by
  refine avoids.followed kept (fun machine => by rw [passed]; rfl) fun signal other => ?_
  cases signal with
  | normal => exact normal
  | breaking =>
      rw [breaking]
      exact .pure nofun
  | continuing =>
      rw [continuing]
      exact .pure nofun
  | returning => exact absurd rfl other

/-- An action between setting up and tidying up. -/
theorem enclosed {setup tidy : Machine → Machine} {action : Exec Signal}
    (frames : ∀ machine, (setup machine).frames = machine.frames)
    (shares : ∀ machine : Machine, machine.Shares (tidy machine))
    (returned : ∀ machine, (tidy machine).returned = machine.returned) (avoids : Avoids wanted action) :
    Avoids wanted (modify setup >>= fun _ => ensuring tidy action) := by
  intro machine final own ran left
  change ensuring tidy action (setup machine) = .ok _ final at ran
  obtain ⟨middle, inside, rfl⟩ := ensuring_ok ran
  exact avoids _ _ ((frames machine).trans own) inside
    ⟨(returned middle).symm.trans left.value, (shares middle).trans left.shares⟩

end Avoids

section

variable {script : Script} {verbosity : Nat} {evaluator : Evaluator}

/-! ## Bodies and conditionals -/

theorem block_avoids {statement : Exec Signal} (kept : KeepsControl statement)
    (avoids : Avoids wanted statement) (fuel : Nat) :
    Avoids wanted (block script statement fuel) := by
  induction fuel with
  | zero => exact .throw _
  | succ fuel ih =>
      unfold block
      refine .bind (controlDiscipline.currentKind script) fun kind => ?_
      split
      · exact .bind (controlDiscipline.advance script) fun _ => .pure nofun
      · exact .never fun _ _ => throw_ne_ok
      · exact avoids.unlessNormal kept ih rfl rfl rfl

theorem bodyContent_avoids (keeps : evaluator.KeepsControl)
    (avoids : Avoids wanted evaluator.statement) (fuel : Nat) :
    Avoids wanted (bodyContent script evaluator fuel) := by
  refine .bind (controlDiscipline.accept script _) fun braced => ?_
  split
  · exact block_avoids keeps.statement avoids fuel
  · exact avoids

theorem body_avoids (keeps : evaluator.KeepsControl)
    (avoids : Avoids wanted evaluator.statement) (scope : Scope) (fuel : Nat) :
    Avoids wanted (body script evaluator scope fuel) :=
  .enclosed (fun _ => rfl) (fun _ => ⟨rfl, rfl, rfl, rfl, rfl⟩) (fun _ => rfl)
    (bodyContent_avoids keeps avoids fuel)

theorem branches_avoids (keeps : evaluator.KeepsControl)
    (avoids : Avoids wanted evaluator.statement) (fuel : Nat) (taken : Bool) :
    Avoids wanted (branches script evaluator fuel taken) := by
  have normal : Avoids wanted (pure .normal) := .pure nofun
  have passing {next : Exec Signal} (rest : Avoids wanted next) :
      Avoids wanted (passBody script >>= fun _ => next) :=
    .bind (controlDiscipline.passBody script) fun _ => rest
  induction fuel generalizing taken with
  | zero => exact .throw _
  | succ fuel ih =>
      unfold branches
      refine .bind (controlDiscipline.accept script _) fun again => ?_
      split
      · refine .bind (controlDiscipline.conditionInParentheses script keeps) fun holds => ?_
        split
        · exact (body_avoids keeps avoids _ fuel).unlessNormal
            (controlDiscipline.grows (controlDiscipline.body script keeps _ fuel)) (ih true) rfl rfl
            rfl
        · exact passing (ih taken)
      · refine .bind (controlDiscipline.accept script _) fun last => ?_
        split
        · split
          · exact passing normal
          · exact body_avoids keeps avoids _ fuel
        · exact normal

theorem conditional_avoids (keeps : evaluator.KeepsControl)
    (avoids : Avoids wanted evaluator.statement) (fuel : Nat) :
    Avoids wanted (conditional script evaluator fuel) := by
  refine .bind (controlDiscipline.expect script _) fun _ => ?_
  refine .bind (controlDiscipline.conditionInParentheses script keeps) fun holds => ?_
  split
  · exact (body_avoids keeps avoids _ fuel).unlessNormal
      (controlDiscipline.grows (controlDiscipline.body script keeps _ fuel))
      (branches_avoids keeps avoids fuel true) rfl rfl rfl
  · exact .bind (controlDiscipline.passBody script) fun _ => branches_avoids keeps avoids fuel false

/-! ## Loops -/

/-- A loop hands on what an iteration returns. -/
theorem iterate_followed (keeps : evaluator.KeepsControl)
    (avoids : Avoids wanted evaluator.statement) (scope : Scope) (fuel : Nat)
    {next : Signal → Exec Signal}
    (passed : ∀ machine, next .returning machine = .ok .returning machine)
    (others : ∀ signal, signal ≠ .returning → Avoids wanted (next signal)) :
    Avoids wanted (iterate script evaluator scope fuel >>= next) := by
  have iterating : Avoids wanted (iterate script evaluator scope fuel) :=
    .enclosed (fun _ => rfl) (fun _ => ⟨rfl, rfl, rfl, rfl, rfl⟩) (fun _ => rfl)
      (body_avoids keeps avoids scope fuel)
  exact iterating.followed
    (controlDiscipline.grows (controlDiscipline.iterate script keeps scope fuel)) passed others

theorem leaveLoop_avoids (bodyStart : Nat) (known : Option Nat) :
    Avoids wanted (leaveLoop script bodyStart known) := by
  unfold leaveLoop
  split
  · exact .bind (controlDiscipline.moveTo _) fun _ => .pure nofun
  · exact .bind (controlDiscipline.bodyEnd script bodyStart) fun _ =>
      .bind (controlDiscipline.moveTo _) fun _ => .pure nofun

theorem leaveRepetition_avoids (header : Nat) (known : Option Nat) :
    Avoids wanted (leaveRepetition script header known) := by
  unfold leaveRepetition
  split
  · exact .bind (controlDiscipline.moveTo _) fun _ => .pure nofun
  · exact .bind (controlDiscipline.ofDiagnosed _) fun bodyStart => leaveLoop_avoids bodyStart.val none

theorem traverse_avoids (keeps : evaluator.KeepsControl)
    (avoids : Avoids wanted evaluator.statement) (name : Token) (type : DeclaredType)
    (bodyStart fuel : Nat) (iteration : Iteration) (known : Option Nat) :
    Avoids wanted (traverse script evaluator name type bodyStart fuel iteration known) := by
  induction fuel generalizing iteration known with
  | zero => exact .throw _
  | succ fuel ih =>
      unfold traverse
      refine .bind (controlDiscipline.nextOf iteration) fun next => ?_
      split
      · exact leaveLoop_avoids bodyStart known
      · rename_i value rest
        refine .bind (controlDiscipline.conforms value type) fun fits => ?_
        split
        · exact .bind (controlDiscipline.describe value) fun _ => .stopped _ _ _
        · refine .bind (controlDiscipline.moveTo bodyStart) fun _ => ?_
          refine iterate_followed keeps avoids _ fuel (fun machine => by cases known <;> rfl)
            fun signal other => ?_
          refine .bind (controlDiscipline.noteEnd known signal) fun known => ?_
          cases signal with
          | breaking => exact leaveLoop_avoids bodyStart known
          | returning => exact absurd rfl other
          | normal | continuing => exact ih rest known

theorem traversal_avoids (keeps : evaluator.KeepsControl)
    (avoids : Avoids wanted evaluator.statement) (fuel : Nat) :
    Avoids wanted (traversal script evaluator fuel) := by
  refine .bind (controlDiscipline.expect script _) fun _ => ?_
  refine .bind (controlDiscipline.expectSymbol script _) fun _ => ?_
  refine .bind (controlDiscipline.expect script _) fun name => ?_
  refine .bind (controlDiscipline.expectSymbol script _) fun _ => ?_
  refine .bind (controlDiscipline.readType script) fun type => ?_
  refine .bind (controlDiscipline.expect script _) fun _ => ?_
  refine .bind (controlDiscipline.iteration script keeps.expression) fun values => ?_
  refine .bind (controlDiscipline.expectSymbol script _) fun _ => ?_
  exact .bind controlDiscipline.get fun machine =>
    traverse_avoids keeps avoids name type machine.cursor fuel values none

theorem repeatWhile_avoids (keeps : evaluator.KeepsControl)
    (avoids : Avoids wanted evaluator.statement) (header fuel : Nat)
    (known : Option Nat) :
    Avoids wanted (repeatWhile script evaluator header fuel known) := by
  induction fuel generalizing known with
  | zero => exact .throw _
  | succ fuel ih =>
      unfold repeatWhile
      refine .bind (controlDiscipline.moveTo header) fun _ => ?_
      refine .bind (controlDiscipline.conditionInParentheses script keeps) fun holds => ?_
      split
      · refine iterate_followed keeps avoids _ fuel (fun machine => by cases known <;> rfl)
          fun signal other => ?_
        refine .bind (controlDiscipline.noteEnd known signal) fun known => ?_
        cases signal with
        | breaking => exact leaveRepetition_avoids header known
        | returning => exact absurd rfl other
        | normal | continuing => exact ih known
      · exact leaveRepetition_avoids header known

theorem repetition_avoids (keeps : evaluator.KeepsControl)
    (avoids : Avoids wanted evaluator.statement) (fuel : Nat) :
    Avoids wanted (repetition script evaluator fuel) :=
  .bind (controlDiscipline.expect script _) fun _ =>
    .bind controlDiscipline.get fun machine =>
      repeatWhile_avoids keeps avoids machine.cursor fuel none

/-! ## The value of a `return` -/

/-- The value that a `return` in a function with the result type gives: that of the expression behind the
keyword or, where none belongs to it, null. -/
inductive ReturnValue (script : Script) (evaluator : Evaluator) (type : DeclaredType)
    (machine : Machine) (value : Value) : Prop
  | expression {after : Machine}
      (there : script.returnHasValue (some type) (script.tokenAt machine.cursor).position.line
        (machine.cursor + 1) = true)
      (evaluated : evaluator.expression { machine with cursor := machine.cursor + 1 } = .ok value after)
  | nothing
      (absent : script.returnHasValue (some type) (script.tokenAt machine.cursor).position.line
        (machine.cursor + 1) = false)
      (void : type = .void) (null : value = .null)

theorem conforms_null_void (heap : Heap) : heap.conforms .null .void = true := by
  simp [Heap.conforms, Heap.conformsTo, Value.conformsToBase, DeclaredType.void, DeclaredType.simple,
    Value.tag]

theorem returnedValue_ok {machine final : Machine} {function : Function} {value : Value}
    (gave : returnedValue script evaluator function (script.tokenAt machine.cursor)
      { machine with cursor := machine.cursor + 1 } = .ok value final) :
    ReturnValue script evaluator function.returnType machine value ∧
      final.heap.conforms value function.returnType = true := by
  have gave := get_bind_ok (current_bind_ok gave)
  split at gave
  case isTrue there =>
    obtain ⟨given, after, evaluated, gave⟩ := bind_ok gave
    obtain ⟨fits, _, checked, gave⟩ := bind_ok gave
    obtain ⟨rfl, rfl⟩ := conforms_ok checked
    split at gave
    case isTrue conforming =>
      obtain ⟨rfl, rfl⟩ := pure_ok gave
      exact ⟨.expression there evaluated, conforming⟩
    case isFalse => exact absurd gave bind_refuse_ne_ok
  case isFalse absent =>
    split at gave
    case isTrue void =>
      obtain ⟨rfl, rfl⟩ := pure_ok gave
      refine ⟨.nothing (by simpa using absent) void rfl, ?_⟩
      rw [void]
      exact conforms_null_void _
    case isFalse => exact absurd gave refuse_ne_ok

/-- What a `return` gives conforms to the result type of its function, and the machine holds it. -/
theorem returnFrom_ok {machine final : Machine} {function : Function} {others : List Function}
    (here : script.kindAt machine.cursor = .keyword .returnWord)
    (frames : machine.frames = function :: others)
    (ran : returnFrom script evaluator machine = .ok .returning final) :
    ReturnValue script evaluator function.returnType machine final.returned ∧
      final.heap.conforms final.returned function.returnType = true := by
  obtain ⟨cursor, scopes, functions, active⟩ := machine
  obtain rfl : active = function :: others := frames
  rw [returnFrom_eq here] at ran
  obtain ⟨value, looked, gave, ran⟩ := bind_ok ran
  obtain ⟨_, tagged, retagged, ran⟩ := bind_ok ran
  obtain ⟨_, holding, held, ran⟩ := bind_ok ran
  obtain ⟨_, _, semicolon, ran⟩ := bind_ok ran
  obtain ⟨-, rfl⟩ := pure_ok ran
  rw [acceptSemicolon_eq] at semicolon
  cases retagged
  cases held
  cases semicolon
  change _ ∧ (looked.heap.retag value function.returnType).conforms value function.returnType = true
  rw [Heap.conforms_congr (Heap.items_retag value _)]
  exact returnedValue_ok gave

theorem dispatch_return_ok {fuel : Nat} {machine final : Machine} {function : Function}
    {others : List Function} (keyword : script.kindAt machine.cursor = .keyword .returnWord)
    (frames : machine.frames = function :: others)
    (ran : dispatch script verbosity evaluator fuel machine = .ok .returning final) :
    ReturnValue script evaluator function.returnType (observed script verbosity machine)
        final.returned ∧
      final.heap.conforms final.returned function.returnType = true := by
  have here : script.kindAt (observed script verbosity machine).cursor = .keyword .returnWord := keyword
  have inside : (observed script verbosity machine).frames = function :: others := frames
  rw [dispatch_eq, keyword] at ran
  exact returnFrom_ok here inside ran

/-! ## Statements -/

theorem jump_avoids : Avoids wanted (jump script) := by
  refine .bind (controlDiscipline.advance script) fun token => ?_
  refine .never fun machine final ran => ?_
  obtain ⟨-, ran⟩ := guarded_ok (get_bind_ok ran)
  obtain ⟨_, _, -, ran⟩ := bind_ok ran
  obtain ⟨same, -⟩ := pure_ok ran
  split at same <;> cases same

theorem perform_avoids (keeps : evaluator.KeepsControl) (avoids : Avoids wanted evaluator.statement)
    (fuel : Nat) {kind : Kind} (other : kind ≠ .keyword .returnWord) (position : Position) :
    Avoids wanted (perform script evaluator fuel kind position) := by
  have simple {action : Exec Unit} : Avoids wanted (simple script action) :=
    .never fun _ _ ran => absurd (simple_normal ran) nofun
  unfold perform
  split
  · exact simple
  · exact simple
  · exact conditional_avoids keeps avoids fuel
  · exact traversal_avoids keeps avoids fuel
  · exact repetition_avoids keeps avoids fuel
  · exact simple
  · exact absurd rfl other
  · exact jump_avoids
  · exact jump_avoids
  · exact body_avoids keeps avoids _ fuel
  · exact simple
  · exact simple
  · exact simple
  · exact .never fun _ _ => refuse_ne_ok

/-! ## Coming to a statement -/

/-- Performing an action comes to a statement with the property: the execution that gives up before such
statements does not complete it. -/
def ComesTo (script : Script) (verbosity fuel : Nat) (action : Evaluator → Exec α) (machine : Machine)
    (property : Nat → Machine → Prop) : Prop :=
  ∃ final, action (watched script verbosity (fun _ fuel machine => ¬ property fuel machine)
    (throw .exhausted) fuel) machine = .error .exhausted final

/-- An execution that gives up before some statements does the same as the one that does not, or is
given up. -/
theorem watched_evaluators (script : Script) (verbosity : Nat) (watch : Watch) (fuel : Nat) :
    Coupling.fuelled.Evaluators (watched script verbosity watch (throw .exhausted) fuel)
      (Exec.evaluator script verbosity fuel) := by
  have laws := fuelled_laws script
  induction fuel with
  | zero =>
      exact ⟨fun _ _ _ => .early trivial, fun _ _ _ => .early trivial,
        controlDiscipline.evaluates script verbosity 0⟩
  | succ fuel ih =>
      refine ⟨laws.disjunction ih (laws.call ih (.refl _ fuel)) (.refl _ fuel), ?_,
        controlDiscipline.evaluates script verbosity (fuel + 1)⟩
      rintro machine _ rfl
      by_cases holds : watch (watched script verbosity watch (throw .exhausted) fuel) fuel machine
      · rw [watched_statement_of_holds script verbosity holds]
        exact laws.dispatch ih (.refl _ fuel) (congrArg (observed script verbosity)) rfl
      · rw [watched_statement_of_fails script verbosity holds]
        exact .early trivial

/-- What such an execution completes, the other one completes in the same way. -/
theorem ok_of_fuelled {action partner : Exec α} {machine final : Machine} {result : α}
    (outcomes : Coupling.fuelled.Outcomes Eq (action machine) (partner machine))
    (ran : action machine = .ok result final) : partner machine = .ok result final := by
  rw [ran] at outcomes
  generalize partner machine = outcome at outcomes
  cases outcomes with
  | succeeded same related =>
      cases same
      cases related
      rfl

theorem ComesTo.exists {fuel : Nat} {action : Evaluator → Exec α} {machine final : Machine} {result : α}
    {property : Nat → Machine → Prop} (comes : ComesTo script verbosity fuel action machine property)
    (ran : action (Exec.evaluator script verbosity fuel) machine = .ok result final) :
    ∃ level before, property level before := by
  by_contra absent
  push Not at absent
  obtain ⟨last, ended⟩ := comes
  rw [watched_of_always script verbosity (fun _ level before => absent level before), ran] at ended
  cases ended

/-- The statement on the machine is the wanted `return`: one of the very call, which gives the value and
after which nothing of what all calls share is changed before the body is left. -/
structure ReturnsHere (script : Script) (verbosity : Nat) (wanted : Return) (fuel : Nat)
    (machine : Machine) : Prop where
  keyword : script.kindAt machine.cursor = .keyword .returnWord
  frames : machine.frames = wanted.frames
  value : ReturnValue script (Exec.evaluator script verbosity fuel) wanted.function.returnType
    (observed script verbosity machine) wanted.value
  ended : ∃ after, statement script verbosity (fuel + 1) machine = .ok .returning after ∧
    wanted.Made after

/-- The value that is returned conforms to the result type when the body is left. -/
theorem ReturnsHere.conforms {fuel : Nat} {machine : Machine}
    (given : ReturnsHere script verbosity wanted fuel machine) :
    wanted.last.heap.conforms wanted.value wanted.function.returnType = true := by
  obtain ⟨after, ran, made⟩ := given.ended
  rw [← made.shares.heap, ← made.value]
  exact (dispatch_return_ok given.keyword given.frames ran).2

/-- The execution that gives up before the wanted `return` does not return in this way. -/
theorem watched_avoids (script : Script) (verbosity : Nat) (wanted : Return) (fuel : Nat) :
    Avoids wanted (watched script verbosity
      (fun _ fuel machine => ¬ ReturnsHere script verbosity wanted fuel machine) (throw .exhausted)
      fuel).statement := by
  let watch : Watch := fun _ fuel machine => ¬ ReturnsHere script verbosity wanted fuel machine
  change Avoids wanted (watched script verbosity watch (throw .exhausted) fuel).statement
  induction fuel with
  | zero => exact .throw _
  | succ fuel ih =>
      intro machine final frames ran left
      have keeps := watched_keeps script verbosity controlDiscipline watch .exhausted fuel
      by_cases given : ReturnsHere script verbosity wanted fuel machine
      · rw [watched_statement_of_fails script verbosity (not_not_intro given)] at ran
        exact throw_ne_ok ran
      · rw [watched_statement_of_holds script verbosity given] at ran
        by_cases keyword : script.kindAt machine.cursor = .keyword .returnWord
        · have ended := ok_of_fuelled ((fuelled_laws script).dispatch
            (watched_evaluators script verbosity watch fuel) (.refl _ fuel)
            (congrArg (observed script verbosity)) rfl) ran
          refine given ⟨keyword, frames, ?_, final, ended, left⟩
          rw [← left.value]
          exact (dispatch_return_ok keyword frames ended).1
        · rw [dispatch_eq] at ran
          exact perform_avoids keeps ih fuel keyword _ (observed script verbosity machine) _ frames ran
            left

/-! ## Bodies of functions -/

theorem statementsUntil_avoids {statement : Exec Signal} (kept : KeepsControl statement)
    (avoids : Avoids wanted statement) (finish fuel : Nat) :
    Avoids wanted (statementsUntil statement finish fuel) := by
  induction fuel with
  | zero => exact .throw _
  | succ fuel ih =>
      unfold statementsUntil
      refine .bind controlDiscipline.get fun machine => ?_
      split
      · exact avoids.unlessNormal kept ih rfl rfl rfl
      · exact .pure (by simp)

open Signal (Allowed allowed_control) in
theorem statementsUntil_allowed {statement : Exec Signal} (kept : KeepsControl statement)
    (gives : Gives Allowed statement) (finish fuel : Nat) :
    Gives Allowed (statementsUntil statement finish fuel) := by
  induction fuel with
  | zero => exact .throw _
  | succ fuel ih =>
      unfold statementsUntil
      refine .bind allowed_control controlDiscipline.get fun machine => ?_
      split
      · exact .unlessNormal allowed_control gives kept ih rfl rfl rfl
      · exact .normal fun _ => trivial

/-- One statement more at the beginning. -/
theorem Executed.preceded {statement : Exec Signal} {followed : Machine → Signal → Prop}
    {first second last : Machine} {count : Nat} {signal : Signal}
    (ran : statement first = .ok signal second) (more : followed first signal)
    (executed : Executed statement followed second count last) :
    Executed statement followed first (count + 1) last := by
  induction executed with
  | start => exact .next .start ran more
  | next _ later follows ih => exact .next ih later follows

/-- A body that ends normally was executed to its end, and all of its statements ended normally. -/
theorem executed_of_normal {statement : Exec Signal} {function : Function} {fuel : Nat}
    {machine final : Machine}
    (ran : statementsUntil statement function.finish fuel machine = .ok .normal final) :
    ∃ count, Executed statement (followedInCall function) machine count final ∧
      function.finish ≤ final.cursor := by
  induction fuel generalizing machine with
  | zero => exact absurd ran throw_ne_ok
  | succ fuel ih =>
      unfold statementsUntil at ran
      have ran := get_bind_ok ran
      split at ran
      case isTrue inside =>
        obtain ⟨signal, middle, first, ran⟩ := bind_ok ran
        cases signal with
        | normal =>
            obtain ⟨count, executed, behind⟩ := ih ran
            exact ⟨count + 1, executed.preceded first ⟨inside, rfl⟩, behind⟩
        | breaking | continuing | returning => cases (pure_ok ran).1
      case isFalse outside =>
        obtain ⟨-, rfl⟩ := pure_ok ran
        exact ⟨0, .start, Nat.le_of_not_lt outside⟩

/-! ## Calls -/

/-- An argument of a call: the machine that it was evaluated on, and its value. -/
structure Argument where
  start : Machine
  value : Value

/-- The arguments were evaluated one after the other: each of them on the machine that the one before it
left, behind the comma that separates them. -/
inductive ArgumentsRead (script : Script) (expression : Exec Value) :
    Machine → List Argument → Machine → Prop
  | none {machine : Machine} : ArgumentsRead script expression machine [] machine
  | last {machine final : Machine} {value : Value} (evaluated : expression machine = .ok value final) :
      ArgumentsRead script expression machine [⟨machine, value⟩] final
  | more {machine after final : Machine} {value : Value} {others : List Argument}
      (evaluated : expression machine = .ok value after)
      (comma : script.kindAt after.cursor = .symbol .comma)
      (rest : ArgumentsRead script expression { after with cursor := after.cursor + 1 } others final) :
      ArgumentsRead script expression machine (⟨machine, value⟩ :: others) final

theorem arguments_read {fuel : Nat} {machine final : Machine} {given : List (Token × Value)}
    (read : arguments script evaluator fuel machine = .ok given final) :
    ∃ arguments, ArgumentsRead script evaluator.expression machine arguments final ∧
      given.map Prod.snd = arguments.map Argument.value := by
  unfold Exec.arguments at read
  induction fuel generalizing machine given with
  | zero => exact absurd read throw_ne_ok
  | succ fuel ih =>
      unfold separated at read
      have read := currentKind_bind_ok read
      split at read
      case isTrue =>
        obtain ⟨rfl, rfl⟩ := pure_ok read
        exact ⟨[], .none, rfl⟩
      case isFalse =>
        obtain ⟨first, after, item, read⟩ := bind_ok read
        obtain ⟨value, _, evaluated, item⟩ := bind_ok (current_bind_ok item)
        obtain ⟨rfl, rfl⟩ := pure_ok item
        obtain ⟨more, _, accepted, ended⟩ := bind_ok read
        rcases accept_ok (by simp) accepted with ⟨rfl, comma, rfl⟩ | ⟨rfl, -, rfl⟩
        · obtain ⟨rest, _, others, ended⟩ := bind_ok ended
          obtain ⟨rfl, rfl⟩ := pure_ok ended
          obtain ⟨arguments, listed, same⟩ := ih others
          exact ⟨⟨machine, value⟩ :: arguments, .more evaluated comma listed,
            congrArg (value :: ·) same⟩
        · obtain ⟨rfl, rfl⟩ := pure_ok ended
          exact ⟨[⟨machine, value⟩], .last evaluated, rfl⟩

/-- Evaluating arguments keeps the control state, so that each of them sees the scopes of the caller. -/
theorem ArgumentsRead.kept {expression : Exec Value} (keeps : Keeps (ControlKept []) expression)
    {machine final : Machine} {arguments : List Argument}
    (read : ArgumentsRead script expression machine arguments final) :
    ∀ argument ∈ arguments, machine.ControlKept [] argument.start := by
  induction read with
  | none => exact List.forall_mem_nil _
  | @last machine _ _ _ =>
      rintro _ (_ | ⟨_, ⟨⟩⟩)
      exact .refl machine
  | @more machine after _ _ _ evaluated _ _ ih =>
      rintro argument (_ | ⟨_, later⟩)
      · exact .refl machine
      · have moved : after.ControlKept [] { after with cursor := after.cursor + 1 } :=
          controlDiscipline.moved after _
        exact ((keeps.ok evaluated).trans moved).trans (ih argument later)

/-- A call has come to the body of a function: its arguments were evaluated, there are as many as the
function has parameters, and when the body starts each of them conforms to the type of its parameter. -/
structure ReachesBody (script : Script) (expression : Exec Value) (machine : Machine)
    (function : Function) (arguments : List Argument) (ready : Machine) : Prop where
  named : script.kindAt machine.cursor = .identifier
  opened : script.kindAt (machine.cursor + 1) = .symbol .leftParen
  closed : ∃ last, ArgumentsRead script expression { machine with cursor := machine.cursor + 2 }
      arguments last ∧ script.kindAt last.cursor = .symbol .rightParen ∧
    ready = { last with cursor := last.cursor + 1 }
  scope : ∀ argument ∈ arguments, machine.ControlKept [] argument.start
  declared : ready.functions.lookup? (script.tokenAt machine.cursor).word = some function
  arity : arguments.length = function.arity
  conforming : ∀ bound ∈ function.parameters.zip (arguments.map Argument.value),
    ∀ type, bound.1.type = some type →
      (enterCall function (arguments.map Argument.value) ready).heap.conforms bound.2 type = true

/-- Reads a call up to its closing parenthesis. -/
def readCall (script : Script) (expression : Exec Value) (fuel : Nat) :
    Exec (Token × List (Token × Value)) := do
  let name ← expect script .identifier
  expectSymbol script .leftParen
  let given ← arguments script ⟨expression, throw .exhausted⟩ fuel
  expectSymbol script .rightParen
  return (name, given)

theorem call_eq_readCall (script : Script) (evaluator : Evaluator) (fuel : Nat) :
    call script evaluator fuel = readCall script evaluator.expression fuel >>= fun read =>
      performCall evaluator read.1 read.2 fuel := by
  rw [call_eq, readCall]
  simp only [bind_assoc, pure_bind]
  rfl

/-- A call fails, or has found its function and executes the body. -/
theorem performCall_cases (expression : Exec Value) (name : Token) (given : List (Token × Value))
    (fuel : Nat) (machine : Machine) :
    (∃ failure final, ∀ statement,
        performCall ⟨expression, statement⟩ name given fuel machine = .error failure final) ∨
      ∃ function, machine.functions.lookup? name.word = some function ∧
        given.length = function.arity ∧
        (∀ argument ∈ function.parameters.zip given, ∀ type, argument.1.type = some type →
          machine.heap.conforms argument.2.2 type = true) ∧
        ∀ statement, performCall ⟨expression, statement⟩ name given fuel machine =
          invoke ⟨expression, statement⟩ function (given.map Prod.snd) name fuel machine := by
  unfold performCall
  simp only [get_bind_eq]
  cases machine.functions.lookup? name.word with
  | none => exact .inl ⟨_, _, fun _ => rfl⟩
  | some function =>
      by_cases count : given.length = function.arity
      · simp only [count, ne_eq, not_true_eq_false, if_false]
        cases checked : checkArguments name.word (function.parameters.zip given) machine with
        | error failure final => exact .inl ⟨failure, final, fun _ => bind_of_error checked _⟩
        | ok _ same =>
            obtain rfl : same = machine := (unchanged.checkArguments _ _).ok checked
            simp only [bind_of_ok checked]
            by_cases deep : maxCallDepth ≤ same.frames.length
            · refine .inl ⟨.diagnostic ⟨.callDepth maxCallDepth, name.position⟩, same, fun _ => ?_⟩
              rw [get_bind_eq, if_pos deep]
              rfl
            · refine .inr ⟨function, rfl, rfl, checkArguments_ok checked, fun _ => ?_⟩
              rw [get_bind_eq, if_neg deep]
      · simp only [ne_eq, count, not_false_eq_true, if_true]
        exact .inl ⟨_, _, fun _ => rfl⟩

theorem call_cases {expression : Exec Value} (keeps : Keeps (ControlKept []) expression) (fuel : Nat)
    (machine : Machine) :
    (∃ failure final, ∀ statement,
        call script ⟨expression, statement⟩ fuel machine = .error failure final) ∨
      ∃ function arguments ready, ReachesBody script expression machine function arguments ready ∧
        ∀ statement, call script ⟨expression, statement⟩ fuel machine =
          invoke ⟨expression, statement⟩ function (arguments.map Argument.value)
            (script.tokenAt machine.cursor) fuel ready := by
  simp only [call_eq_readCall]
  cases read : readCall script expression fuel machine with
  | error failure final => exact .inl ⟨failure, final, fun _ => bind_of_error read _⟩
  | ok named ready =>
      simp only [bind_of_ok read]
      rcases performCall_cases expression named.1 named.2 fuel ready with failed | reached
      · exact .inl failed
      · right
        obtain ⟨function, found, count, fitting, performed⟩ := reached
        obtain ⟨name, _, first, read⟩ := bind_ok read
        obtain ⟨identifier, rfl, rfl⟩ := expect_ok (by simp) first
        obtain ⟨_, _, second, read⟩ := bind_ok read
        obtain ⟨opened, rfl⟩ := expectSymbol_ok second
        obtain ⟨given, last, listed, read⟩ := bind_ok read
        obtain ⟨_, _, third, read⟩ := bind_ok read
        obtain ⟨closed, rfl⟩ := expectSymbol_ok third
        obtain ⟨rfl, rfl⟩ := pure_ok read
        obtain ⟨arguments, evaluated, same⟩ := arguments_read listed
        have length : arguments.length = given.length := by
          simpa using (congrArg List.length same).symm
        have begun : machine.ControlKept [] { machine with cursor := machine.cursor + 2 } :=
          controlDiscipline.moved machine _
        simp only [same] at performed
        refine ⟨function, arguments, _, ⟨identifier, opened, ⟨last, evaluated, closed, rfl⟩, ?_, found,
          length.trans count, ?_⟩, performed⟩
        · exact fun argument member => begun.trans (evaluated.kept keeps argument member)
        · intro bound member type declared
          rw [← same, List.zip_map_right] at member
          obtain ⟨argument, listed, rfl⟩ := List.mem_map.mp member
          change (retagArguments _ _).conforms _ _ = true
          rw [Heap.conforms_congr (items_retagArguments _ _)]
          exact fitting argument listed type declared

/-- How a call whose body was executed from a machine on came by its result. -/
inductive ComesToResult (script : Script) (verbosity fuel rounds : Nat) (function : Function)
    (callers : List Function) (start : Machine) (result : Value) : Prop
  /-- The body ended with the signal to return, the machine held the result then, and the body came to
  the `return` of this very call that gave it. -/
  | returned {last : Machine}
      (ended : statementsUntil (statement script verbosity fuel) function.finish rounds start =
        .ok .returning last)
      (held : last.returned = result)
      (comes : ComesTo script verbosity fuel
        (fun evaluator => statementsUntil evaluator.statement function.finish rounds) start
        (ReturnsHere script verbosity ⟨function, callers, result, last⟩))
  /-- All statements of the body ended normally, and the function declares no result. -/
  | finished {count : Nat} {last : Machine}
      (executed : Executed (statement script verbosity fuel) (followedInCall function) start count last)
      (behind : function.finish ≤ last.cursor) (void : function.returnType = .void)
      (null : result = .null)

/-- A body that returns a value comes to the `return` that gives it. -/
theorem comesTo_return {fuel rounds : Nat} {function : Function} {callers : List Function}
    {start last : Machine} (frames : start.frames = function :: callers)
    (ended : statementsUntil (statement script verbosity fuel) function.finish rounds start =
      .ok .returning last) :
    ComesTo script verbosity fuel
      (fun evaluator => statementsUntil evaluator.statement function.finish rounds) start
      (ReturnsHere script verbosity ⟨function, callers, last.returned, last⟩) := by
  let wanted : Return := ⟨function, callers, last.returned, last⟩
  let watch : Watch := fun _ fuel machine => ¬ ReturnsHere script verbosity wanted fuel machine
  have keeps := watched_keeps script verbosity controlDiscipline watch .exhausted fuel
  have avoids := statementsUntil_avoids keeps.statement (watched_avoids script verbosity wanted fuel)
    function.finish rounds
  have outcomes := (fuelled_laws script).statementsUntil
    (watched_evaluators script verbosity watch fuel).statement function.finish (.refl _ rounds)
    (rfl : start = start)
  rw [show statementsUntil (Exec.evaluator script verbosity fuel).statement function.finish rounds start
    = _ from ended] at outcomes
  unfold ComesTo
  generalize ran : statementsUntil (watched script verbosity watch (throw .exhausted) fuel).statement
    function.finish rounds start = outcome at outcomes
  cases outcomes with
  | succeeded same related =>
      cases same
      cases related
      exact absurd ⟨rfl, rfl, rfl, rfl, rfl, rfl⟩ (avoids start last frames ran)
  | early => exact ⟨_, ran⟩

/-- The value is that which the machine holds when the body is left. -/
theorem callBody_ok {statement : Exec Signal} {finish fuel : Nat} {machine final : Machine}
    {signal : Signal} {value : Value}
    (ran : callBody statement finish fuel machine = .ok (signal, value) final) :
    statementsUntil statement finish fuel machine = .ok signal final ∧ value = final.returned := by
  obtain ⟨ended, middle, executed, ran⟩ := bind_ok ran
  have held := get_bind_ok ran
  obtain ⟨same, rfl⟩ := pure_ok held
  cases same
  exact ⟨executed, rfl⟩

theorem invoke_result {fuel rounds : Nat} {function : Function} {values : List Value} {name : Token}
    {ready final : Machine} {result : Value}
    (ran : invoke (Exec.evaluator script verbosity fuel) function values name rounds ready =
      .ok result final) :
    final.heap.conforms result function.returnType = true ∧
      ComesToResult script verbosity fuel rounds function ready.frames
        (enterCall function values ready) result := by
  have keeps := controlDiscipline.evaluates script verbosity fuel
  rw [invoke_eq] at ran
  obtain ⟨⟨signal, value⟩, left, body, ran⟩ := bind_ok ran
  obtain ⟨last, inside, rfl⟩ := ensuring_ok body
  obtain ⟨executed, rfl⟩ := callBody_ok inside
  have allowed := statementsUntil_allowed keeps.statement (statement_allowed script verbosity fuel) _ _
    _ _ _ executed
  cases signal with
  | returning =>
      obtain ⟨rfl, rfl⟩ := pure_ok ran
      have comes := comesTo_return rfl executed
      obtain ⟨level, before, given⟩ := comes.exists executed
      exact ⟨given.conforms, .returned executed rfl comes⟩
  | normal =>
      obtain ⟨count, statements, behind⟩ := executed_of_normal executed
      change (if function.returnType = .void then pure .null else
        refuse (.missingReturn function.name function.returnType) name.position : Exec Value) _ = _ at ran
      by_cases void : function.returnType = .void
      · rw [if_pos void] at ran
        obtain ⟨rfl, rfl⟩ := pure_ok ran
        refine ⟨?_, .finished statements behind void rfl⟩
        rw [void]
        exact conforms_null_void _
      · rw [if_neg void] at ran
        exact absurd ran refuse_ne_ok
  | breaking | continuing => cases allowed

/-- A call honours the signature of its function and gives the right value. It fails, whatever the
statements of the script do, or comes to the body of a function: then its arguments were evaluated from
left to right in the scopes of the caller, there are as many as the function has parameters, and they
conform to their types when the body starts. If the call completes, its result conforms to the result type
of the function and was given by the `return` of this call that ended the body; only in a function without
a result type may the `return`, or its value, be missing, and then the result is null. -/
theorem call_honours_signature (script : Script) (verbosity fuel rounds : Nat) (machine : Machine) :
    (∃ failure final, ∀ statement,
        call script ⟨expression script verbosity fuel, statement⟩ rounds machine =
          .error failure final) ∨
      ∃ function arguments ready,
        ReachesBody script (expression script verbosity fuel) machine function arguments ready ∧
        ∀ result final,
          call script (Exec.evaluator script verbosity fuel) rounds machine = .ok result final →
          final.heap.conforms result function.returnType = true ∧
            ComesToResult script verbosity fuel rounds function ready.frames
              (enterCall function (arguments.map Argument.value) ready) result := by
  have keeps := (controlDiscipline.evaluates script verbosity fuel).expression
  rcases call_cases keeps rounds machine with failed | ⟨function, arguments, ready, reached, called⟩
  · exact .inl failed
  · refine .inr ⟨function, arguments, ready, reached, fun result final ran => ?_⟩
    exact invoke_result ((called _).symm.trans ran)

end

end Exec

end Onepass
