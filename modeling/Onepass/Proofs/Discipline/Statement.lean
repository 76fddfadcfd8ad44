import Onepass.Proofs.Discipline.Expression

/-! # What statements and calls keep

The constructs that execute statements respect the relations of a discipline as well. A statement
that is not the declaration of a variable respects the stricter one.
-/

set_option autoImplicit false

namespace Onepass

/-- Whether the statement at a place declares a variable. -/
def Script.declaresVariable (script : Script) (place : Nat) : Prop :=
  script.kindAt place = .symbol .dollar ∨
    (script.kindAt place = .identifier ∧ script.kindAt (place + 1) = .symbol .colon)

namespace Discipline

open Exec (Keeps finalOf)

variable {steady growing : Machine → Machine → Prop} (discipline : Discipline steady growing)
variable (script : Script) {evaluator : Evaluator}

include discipline

/-! ## Calls -/

theorem statementsUntil {statement : Exec Signal} (keeps : Keeps growing statement)
    (finish fuel : Nat) : Keeps growing (Exec.statementsUntil statement finish fuel) := by
  induction fuel with
  | zero => exact discipline.grows (discipline.throw _)
  | succ fuel ih =>
      unfold Exec.statementsUntil
      refine discipline.bindGrowing (discipline.grows discipline.get) fun machine => ?_
      split
      · refine discipline.bindGrowing keeps fun signal => ?_
        split
        · exact ih
        · exact discipline.grows (discipline.pure _)
      · exact discipline.grows (discipline.pure _)

theorem callBody {statement : Exec Signal} (keeps : Keeps growing statement) (finish fuel : Nat) :
    Keeps growing (Exec.callBody statement finish fuel) :=
  discipline.bindGrowing (discipline.statementsUntil keeps finish fuel) fun _ =>
    discipline.grows (discipline.bind discipline.get fun _ => discipline.pure _)

theorem invoke (keeps : evaluator.Keeps steady growing) (function : Function)
    (arguments : List Value) (name : Token) (fuel : Nat) :
    Keeps steady (Exec.invoke evaluator function arguments name fuel) := by
  intro machine
  rw [Exec.invoke_eq]
  -- The caller is put back by the tidying action, whatever the body did.
  have performed : steady machine (finalOf (Exec.ensuring
      (Exec.leaveCall machine.cursor machine.loopDepth)
      (Exec.callBody evaluator.statement function.finish fuel)
      (Exec.enterCall function arguments machine))) := by
    rw [Exec.finalOf_ensuring]
    exact discipline.returned machine function arguments _
      (discipline.callBody keeps.statement function.finish fuel _)
  exact Exec.related_bind discipline.trans performed fun ended _ _ =>
    discipline.callResult function name ended _

theorem call (keeps : evaluator.Keeps steady growing) (fuel : Nat) :
    Keeps steady (Exec.call script evaluator fuel) := by
  have argument : Keeps steady (do
      let token ← Exec.current script
      return (token, ← evaluator.expression)) :=
    discipline.bind (discipline.current script) fun _ =>
      discipline.bind keeps.expression fun _ => discipline.pure _
  refine discipline.bind (discipline.expect script _) fun name => ?_
  refine discipline.bind (discipline.expectSymbol script _) fun _ => ?_
  refine discipline.bind (discipline.separated script _ argument fuel) fun given => ?_
  refine discipline.bind (discipline.expectSymbol script _) fun _ => ?_
  refine discipline.bind discipline.get fun machine => ?_
  split
  · exact discipline.refuse _ _
  · split
    · exact discipline.refuse _ _
    · refine discipline.bind (discipline.checkArguments _ _) fun _ => ?_
      refine discipline.bind discipline.get fun machine => ?_
      split
      · exact discipline.refuse _ _
      · exact discipline.invoke keeps _ _ name fuel

/-! ## Declarations and assignments -/

theorem adopt (value : Value) (expected : Option DeclaredType) (position : Position) :
    Keeps steady (Exec.adopt value expected position) := by
  unfold Exec.adopt
  split
  · refine discipline.bind (discipline.checkAssigned value _ position) fun _ => ?_
    exact discipline.retag value _
  · exact discipline.pure _

theorem initializer (keeps : evaluator.Keeps steady growing) (type : DeclaredType) (fuel : Nat) :
    Keeps steady (Exec.initializer script evaluator type fuel) := by
  unfold Exec.initializer
  split
  · exact keeps.expression
  · refine discipline.bind (discipline.currentKind script) fun found => ?_
    split
    · exact discipline.declaredArray script keeps fuel _ _
    · exact keeps.expression

theorem declaredVariable (keeps : evaluator.Keeps steady growing) (fuel : Nat) :
    Keeps steady (Exec.declaredVariable script evaluator fuel) := by
  refine discipline.bind (discipline.accept script _) fun constant => ?_
  refine discipline.bind (discipline.expect script _) fun name => ?_
  refine discipline.bind discipline.get fun machine => ?_
  refine discipline.guarded _ (discipline.refuse _ _) ?_
  refine discipline.bind (discipline.expectSymbol script _) fun _ => ?_
  refine discipline.bind (discipline.readType script) fun type => ?_
  refine discipline.guarded _ (discipline.refuse _ _) ?_
  refine discipline.bind (discipline.expectSymbol script _) fun _ => ?_
  refine discipline.bind (discipline.current script) fun start => ?_
  refine discipline.bind (discipline.initializer script keeps type fuel) fun value => ?_
  exact discipline.bind (discipline.adopt value _ _) fun _ => discipline.pure _

/-- Only here a name is added, after everything that was read. -/
theorem variableDeclaration (keeps : evaluator.Keeps steady growing) (fuel : Nat) :
    Keeps growing (Exec.variableDeclaration script evaluator fuel) :=
  discipline.bindGrowing (discipline.grows (discipline.declaredVariable script keeps fuel))
    fun declared machine => discipline.declared machine declared.1.word declared.2

theorem indices (keeps : evaluator.Keeps steady growing) (fuel : Nat) :
    Keeps steady (Exec.indices script evaluator fuel) := by
  induction fuel with
  | zero => exact discipline.throw _
  | succ fuel ih =>
      unfold Exec.indices
      refine discipline.bind (discipline.currentKind script) fun found => ?_
      split
      · refine discipline.bind (discipline.advance script) fun _ => ?_
        refine discipline.bind (discipline.current script) fun token => ?_
        refine discipline.bind keeps.expression fun index => ?_
        refine discipline.bind (discipline.expectSymbol script _) fun _ => ?_
        exact discipline.bind ih fun _ => discipline.pure _
      · exact discipline.pure _

theorem assignedValue (keeps : evaluator.Keeps steady growing) (operator : Token) (old : Value) :
    Keeps steady (Exec.assignedValue evaluator operator old) := by
  unfold Exec.assignedValue
  split
  · exact discipline.applyBinary _ _ _ _
  · exact discipline.applyBinary _ _ _ _
  · split
    · exact discipline.bind keeps.expression fun operand => discipline.applyBinary _ _ _ _
    · exact keeps.expression
  · exact keeps.expression

theorem preparedAssignment (keeps : evaluator.Keeps steady growing) (fuel : Nat) :
    Keeps steady (Exec.preparedAssignment script evaluator fuel) := by
  refine discipline.bind (discipline.advance script) fun name => ?_
  refine discipline.bind (discipline.bindingOf name) fun _ => ?_
  refine discipline.bind (discipline.indices script keeps fuel) fun selected => ?_
  refine discipline.bind (discipline.current script) fun operator => ?_
  refine discipline.guarded _ (discipline.refuse _ _) ?_
  refine discipline.bind (discipline.advance script) fun _ => ?_
  refine discipline.bind (discipline.bindingOf name) fun binding => ?_
  refine discipline.guarded _ (discipline.refuse _ _) ?_
  refine discipline.bind (discipline.selectElement name _ selected) fun target => ?_
  refine discipline.bind (discipline.current script) fun start => ?_
  refine discipline.bind (discipline.targetValue binding target) fun old => ?_
  refine discipline.bind (discipline.assignedValue keeps operator old) fun value => ?_
  refine discipline.bind discipline.get fun machine => ?_
  exact discipline.bind (discipline.adopt value _ _) fun _ => discipline.pure _

theorem store (name : Token) (target : Exec.Target) (value : Value) :
    Keeps steady (Exec.store name target value) := by
  cases target with
  | named => exact fun machine => discipline.assigned machine name.word value
  | element address place => exact fun machine => discipline.written machine address place value

theorem assignment (keeps : evaluator.Keeps steady growing) (fuel : Nat) :
    Keeps steady (Exec.assignment script evaluator fuel) :=
  discipline.bind (discipline.preparedAssignment script keeps fuel)
    fun prepared => discipline.store prepared.1 prepared.2.1 prepared.2.2

theorem register (function : Function) (position : Position) :
    Keeps steady (Exec.register function position) := by
  -- The table that is extended is the one of the machine that gets the extension.
  intro machine
  refine Exec.related_bind discipline.trans (discipline.get machine) fun read same succeeded => ?_
  obtain ⟨rfl, rfl⟩ := Exec.get_ok succeeded
  split
  · exact discipline.refl _
  · generalize extended : FunctionTable.register? _ _ = table
    cases table with
    | some functions => exact discipline.registered _ _ functions extended
    | none => exact discipline.refl _

theorem functionDeclaration (fuel : Nat) : Keeps steady (Exec.functionDeclaration script fuel) :=
  discipline.declaringFunction script discipline.register fuel

/-! ## Blocks, branches and loops -/

theorem block {statement : Exec Signal} (keeps : Keeps growing statement) (fuel : Nat) :
    Keeps growing (Exec.block script statement fuel) := by
  induction fuel with
  | zero => exact discipline.grows (discipline.throw _)
  | succ fuel ih =>
      unfold Exec.block
      refine discipline.bindGrowing (discipline.grows (discipline.currentKind script)) fun found => ?_
      split
      · exact discipline.grows
          (discipline.bind (discipline.advance script) fun _ => discipline.pure _)
      · exact discipline.grows (discipline.refuseToken script _)
      · refine discipline.bindGrowing keeps fun signal => ?_
        split
        · exact ih
        · exact discipline.grows (discipline.pure _)

theorem bodyContent (keeps : evaluator.Keeps steady growing) (fuel : Nat) :
    Keeps growing (Exec.bodyContent script evaluator fuel) := by
  refine discipline.bindGrowing (discipline.grows (discipline.accept script _)) fun braced => ?_
  split
  · exact discipline.block script keeps.statement fuel
  · exact keeps.statement

/-- The scope in which names were added is gone with the body. -/
theorem body (keeps : evaluator.Keeps steady growing) (scope : Scope) (fuel : Nat) :
    Keeps steady (Exec.body script evaluator scope fuel) := by
  intro machine
  change steady machine (finalOf (Exec.ensuring Exec.closeScope
    (Exec.bodyContent script evaluator fuel) { machine with scopes := machine.scopes.push scope }))
  rw [Exec.finalOf_ensuring]
  exact discipline.closed machine scope _ (discipline.bodyContent script keeps fuel _)

theorem printedValues (keeps : evaluator.Keeps steady growing) (fuel : Nat) :
    Keeps steady (Exec.printedValues script evaluator fuel) := by
  induction fuel with
  | zero => exact discipline.throw _
  | succ fuel ih =>
      unfold Exec.printedValues
      refine discipline.bind (discipline.currentKind script) fun found => ?_
      split
      · exact discipline.pure _
      · exact discipline.refuseToken script _
      · refine discipline.bind keeps.expression fun value => ?_
        refine discipline.bind (discipline.printed value) fun text => ?_
        refine discipline.bind (discipline.accept script _) fun _ => ?_
        exact discipline.bind ih fun _ => discipline.pure _

theorem printValues (keeps : evaluator.Keeps steady growing) (fuel : Nat) :
    Keeps steady (Exec.printValues script evaluator fuel) := by
  refine discipline.bind (discipline.advance script) fun keyword => ?_
  refine discipline.bind (discipline.expectSymbol script _) fun _ => ?_
  refine discipline.bind (discipline.printedValues script keeps fuel) fun text => ?_
  refine discipline.bind (discipline.expectSymbol script _) fun _ => ?_
  exact fun machine => discipline.wrote machine _

theorem condition (keeps : evaluator.Keeps steady growing) :
    Keeps steady (Exec.condition script evaluator) := by
  refine discipline.bind (discipline.current script) fun start => ?_
  refine discipline.bind keeps.expression fun value => ?_
  split
  · exact discipline.pure _
  · exact discipline.bind (discipline.describe _) fun _ => discipline.refuse _ _

theorem conditionInParentheses (keeps : evaluator.Keeps steady growing) :
    Keeps steady (Exec.conditionInParentheses script evaluator) := by
  refine discipline.bind (discipline.expectSymbol script _) fun _ => ?_
  refine discipline.bind (discipline.condition script keeps) fun value => ?_
  exact discipline.bind (discipline.expectSymbol script _) fun _ => discipline.pure _

theorem branches (keeps : evaluator.Keeps steady growing) (fuel : Nat) (taken : Bool) :
    Keeps steady (Exec.branches script evaluator fuel taken) := by
  induction fuel generalizing taken with
  | zero => exact discipline.throw _
  | succ fuel ih =>
      unfold Exec.branches
      refine discipline.bind (discipline.accept script _) fun more => ?_
      split
      · refine discipline.bind (discipline.conditionInParentheses script keeps) fun holds => ?_
        split
        · refine discipline.bind (discipline.body script keeps _ fuel) fun signal => ?_
          split
          · exact ih true
          · exact discipline.pure _
        · exact discipline.bind (discipline.passBody script) fun _ => ih taken
      · refine discipline.bind (discipline.accept script _) fun last => ?_
        split
        · split
          · exact discipline.bind (discipline.passBody script) fun _ => discipline.pure _
          · exact discipline.body script keeps _ fuel
        · exact discipline.pure _

theorem conditional (keeps : evaluator.Keeps steady growing) (fuel : Nat) :
    Keeps steady (Exec.conditional script evaluator fuel) := by
  refine discipline.bind (discipline.expect script _) fun _ => ?_
  refine discipline.bind (discipline.conditionInParentheses script keeps) fun holds => ?_
  split
  · refine discipline.bind (discipline.body script keeps _ fuel) fun signal => ?_
    split
    · exact discipline.branches script keeps fuel true
    · exact discipline.pure _
  · exact discipline.bind (discipline.passBody script) fun _ =>
      discipline.branches script keeps fuel false

theorem iterate (keeps : evaluator.Keeps steady growing) (scope : Scope) (fuel : Nat) :
    Keeps steady (Exec.iterate script evaluator scope fuel) := by
  intro machine
  change steady machine (finalOf (Exec.ensuring
    (fun machine => { machine with loopDepth := machine.loopDepth - 1 })
    (Exec.body script evaluator scope fuel) { machine with loopDepth := machine.loopDepth + 1 }))
  rw [Exec.finalOf_ensuring]
  exact discipline.iterated machine _ (discipline.body script keeps scope fuel _)

theorem traverse (keeps : evaluator.Keeps steady growing) (name : Token) (type : DeclaredType)
    (bodyStart fuel : Nat) (iteration : Iteration) (known : Option Nat) :
    Keeps steady (Exec.traverse script evaluator name type bodyStart fuel iteration known) := by
  induction fuel generalizing iteration known with
  | zero => exact discipline.throw _
  | succ fuel ih =>
      unfold Exec.traverse
      refine discipline.bind (discipline.nextOf iteration) fun next => ?_
      split
      · exact discipline.leaveLoop script bodyStart known
      · refine discipline.bind (discipline.conforms _ type) fun fits => ?_
        split
        · exact discipline.bind (discipline.describe _) fun _ => discipline.refl
        · refine discipline.bind (discipline.moveTo bodyStart) fun _ => ?_
          refine discipline.bind (discipline.iterate script keeps _ fuel) fun signal => ?_
          refine discipline.bind (discipline.noteEnd known signal) fun known => ?_
          split
          · exact discipline.leaveLoop script bodyStart known
          · exact discipline.pure _
          · exact ih _ known

theorem rangeStep {expression : Exec Value} (keeps : Keeps steady expression) :
    Keeps steady (Exec.rangeStep script expression) := by
  refine discipline.bind (discipline.accept script _) fun stepped => ?_
  split
  · refine discipline.bind (discipline.current script) fun token => ?_
    exact discipline.bind keeps fun _ => discipline.pure _
  · exact discipline.bind (discipline.current script) fun _ => discipline.pure _

theorem iteration {expression : Exec Value} (keeps : Keeps steady expression) :
    Keeps steady (Exec.iteration script expression) := by
  refine discipline.bind (discipline.current script) fun start => ?_
  refine discipline.bind keeps fun first => ?_
  refine discipline.bind (discipline.accept script _) fun ranged => ?_
  split
  · refine discipline.bind (discipline.current script) fun finish => ?_
    refine discipline.bind keeps fun last => ?_
    refine discipline.bind (discipline.rangeStep script keeps) fun step => ?_
    obtain ⟨step, position⟩ := step
    dsimp only
    refine discipline.bind (discipline.boundOf first _) fun lower => ?_
    refine discipline.bind (discipline.boundOf last _) fun upper => ?_
    refine discipline.bind (discipline.boundOf step position) fun distance => ?_
    refine discipline.guarded _ (discipline.refuse _ _) ?_
    exact discipline.pure _
  · exact discipline.iterationOver first _

theorem traversal (keeps : evaluator.Keeps steady growing) (fuel : Nat) :
    Keeps steady (Exec.traversal script evaluator fuel) := by
  refine discipline.bind (discipline.expect script _) fun _ => ?_
  refine discipline.bind (discipline.expectSymbol script _) fun _ => ?_
  refine discipline.bind (discipline.expect script _) fun name => ?_
  refine discipline.bind (discipline.expectSymbol script _) fun _ => ?_
  refine discipline.bind (discipline.readType script) fun type => ?_
  refine discipline.bind (discipline.expect script _) fun _ => ?_
  refine discipline.bind (discipline.iteration script keeps.expression) fun values => ?_
  refine discipline.bind (discipline.expectSymbol script _) fun _ => ?_
  exact discipline.bind discipline.get fun machine =>
    discipline.traverse script keeps name type machine.cursor fuel values none

theorem repeatWhile (keeps : evaluator.Keeps steady growing) (header fuel : Nat)
    (known : Option Nat) :
    Keeps steady (Exec.repeatWhile script evaluator header fuel known) := by
  induction fuel generalizing known with
  | zero => exact discipline.throw _
  | succ fuel ih =>
      unfold Exec.repeatWhile
      refine discipline.bind (discipline.moveTo header) fun _ => ?_
      refine discipline.bind (discipline.conditionInParentheses script keeps) fun holds => ?_
      split
      · refine discipline.bind (discipline.iterate script keeps _ fuel) fun signal => ?_
        refine discipline.bind (discipline.noteEnd known signal) fun known => ?_
        split
        · exact discipline.leaveRepetition script header known
        · exact discipline.pure _
        · exact ih known
      · exact discipline.leaveRepetition script header known

theorem repetition (keeps : evaluator.Keeps steady growing) (fuel : Nat) :
    Keeps steady (Exec.repetition script evaluator fuel) :=
  discipline.bind (discipline.expect script _) fun _ =>
    discipline.bind discipline.get fun machine =>
      discipline.repeatWhile script keeps machine.cursor fuel none

/-! ## Single statements -/

theorem returnedValue (keeps : evaluator.Keeps steady growing) (function : Function)
    (keyword : Token) : Keeps steady (Exec.returnedValue script evaluator function keyword) := by
  refine discipline.bind (discipline.current script) fun start => ?_
  refine discipline.bind discipline.get fun machine => ?_
  split
  · refine discipline.bind keeps.expression fun value => ?_
    refine discipline.bind (discipline.conforms value _) fun fits => ?_
    split
    · exact discipline.pure _
    · exact discipline.bind (discipline.describe _) fun _ => discipline.refuse _ _
  · split
    · exact discipline.pure _
    · exact discipline.refuse _ _

theorem giveBack (value : Value) : Keeps steady (Exec.giveBack value) :=
  fun machine => discipline.gave machine value

theorem returnFrom (keeps : evaluator.Keeps steady growing) :
    Keeps steady (Exec.returnFrom script evaluator) := by
  refine discipline.bind (discipline.advance script) fun token => ?_
  refine discipline.bind discipline.get fun machine => ?_
  split
  · exact discipline.refuse _ _
  · refine discipline.bind (discipline.returnedValue script keeps _ token) fun value => ?_
    refine discipline.bind (discipline.retag value _) fun _ => ?_
    refine discipline.bind (discipline.giveBack value) fun _ => ?_
    exact discipline.bind (discipline.acceptSemicolon script) fun _ => discipline.pure _

theorem begins (verbosity : Nat) (machine : Machine) :
    steady machine (Exec.observed script verbosity machine) :=
  discipline.observed machine _ _

theorem simple {action : Exec Unit} (keeps : Keeps steady action) :
    Keeps steady (Exec.simple script action) :=
  discipline.bind keeps fun _ =>
    discipline.bind (discipline.acceptSemicolon script) fun _ => discipline.pure _

theorem simpleGrowing {action : Exec Unit} (keeps : Keeps growing action) :
    Keeps growing (Exec.simple script action) :=
  discipline.bindGrowing keeps fun _ => discipline.grows
    (discipline.bind (discipline.acceptSemicolon script) fun _ => discipline.pure _)

theorem namedStatement (keeps : evaluator.Keeps steady growing) (fuel : Nat) {machine : Machine}
    (other : script.kindAt (machine.cursor + 1) ≠ .symbol .colon) :
    steady machine (finalOf (Exec.namedStatement script evaluator fuel machine)) := by
  refine Exec.related_bind discipline.trans (discipline.followingKind script machine)
    fun following same succeeded => ?_
  obtain ⟨rfl, rfl⟩ := Exec.followingKind_ok succeeded
  rw [if_neg other]
  split
  · exact discipline.bind (discipline.call script keeps fuel) (fun _ => discipline.pure _) _
  · split
    · exact discipline.assignment script keeps fuel _
    · exact discipline.bind (discipline.current script) (fun _ => discipline.refuse _ _) _

/-- A statement that declares no variable respects the stricter relation. -/
theorem perform_steady (keeps : evaluator.Keeps steady growing) (fuel : Nat) (position : Position)
    {machine : Machine} (other : ¬ script.declaresVariable machine.cursor) :
    steady machine
      (finalOf (Exec.perform script evaluator fuel (script.kindAt machine.cursor) position machine)) := by
  generalize known : script.kindAt machine.cursor = kind
  unfold Exec.perform
  split
  · exact discipline.simple script (discipline.printValues script keeps fuel) _
  · exact discipline.simple script (discipline.printValues script keeps fuel) _
  · exact discipline.conditional script keeps fuel _
  · exact discipline.traversal script keeps fuel _
  · exact discipline.repetition script keeps fuel _
  · exact discipline.simple script (discipline.functionDeclaration script fuel) _
  · exact discipline.returnFrom script keeps _
  · exact discipline.jump script _
  · exact discipline.jump script _
  · exact discipline.body script keeps _ fuel _
  · exact absurd (.inl known) other
  · have plain : script.kindAt (machine.cursor + 1) ≠ .symbol .colon :=
      fun colon => other (.inr ⟨known, colon⟩)
    exact Exec.related_bind discipline.trans (discipline.namedStatement script keeps fuel plain)
      fun _ middle _ => discipline.bind (discipline.acceptSemicolon script)
        (fun _ => discipline.pure _) middle
  · exact discipline.simple script (discipline.pure ()) _
  · exact discipline.refuse _ _ _

omit discipline in
/-- A declaration of a variable is executed as one, whichever token it begins with. -/
theorem perform_declaration {fuel : Nat} {machine : Machine}
    (declares : script.declaresVariable machine.cursor) (position : Position) :
    Exec.perform script evaluator fuel (script.kindAt machine.cursor) position machine =
      Exec.simple script (Exec.variableDeclaration script evaluator fuel) machine := by
  rcases declares with dollar | ⟨identifier, colon⟩
  · rw [dollar]
    rfl
  · rw [identifier]
    have named : Exec.namedStatement script evaluator fuel machine =
        Exec.variableDeclaration script evaluator fuel machine := by
      change (if script.kindAt (machine.cursor + 1) = .symbol .colon then _ else _ : Exec Unit) _ = _
      rw [if_pos colon]
    exact Exec.bind_of_same named _

theorem perform (keeps : evaluator.Keeps steady growing) (fuel : Nat) (position : Position)
    (machine : Machine) :
    growing machine
      (finalOf (Exec.perform script evaluator fuel (script.kindAt machine.cursor) position machine)) := by
  by_cases declares : script.declaresVariable machine.cursor
  · rw [perform_declaration script declares]
    exact discipline.simpleGrowing script (discipline.variableDeclaration script keeps fuel) machine
  · exact discipline.weaken (discipline.perform_steady script keeps fuel position declares)

/-- Counting a statement that declares no variable and executing it respects the stricter relation. -/
theorem dispatch_steady (keeps : evaluator.Keeps steady growing) (verbosity fuel : Nat)
    {machine : Machine} (other : ¬ script.declaresVariable machine.cursor) :
    steady machine (finalOf (Exec.dispatch script verbosity evaluator fuel machine)) := by
  rw [Exec.dispatch_eq]
  exact discipline.trans (discipline.begins script verbosity machine)
    (discipline.perform_steady script keeps fuel _ other)

omit discipline in
/-- A declaration of a variable is counted and then executed. -/
theorem dispatch_declaration {verbosity fuel : Nat} {machine : Machine}
    (declares : script.declaresVariable machine.cursor) :
    Exec.dispatch script verbosity evaluator fuel machine =
      Exec.simple script (Exec.variableDeclaration script evaluator fuel)
        (Exec.observed script verbosity machine) := by
  have declared : script.declaresVariable (Exec.observed script verbosity machine).cursor := declares
  rw [Exec.dispatch_eq]
  exact perform_declaration script declared _

theorem dispatch (keeps : evaluator.Keeps steady growing) (verbosity fuel : Nat) :
    Keeps growing (Exec.dispatch script verbosity evaluator fuel) := by
  intro machine
  rw [Exec.dispatch_eq]
  exact discipline.growing_trans (discipline.weaken (discipline.begins script verbosity machine))
    (discipline.perform script keeps fuel _ _)

/-! ## The evaluator -/

/-- Every expression respects the stricter relation and every statement the wider one, with any
amount of fuel and whatever the outcome. -/
theorem evaluates (verbosity fuel : Nat) :
    (Exec.evaluator script verbosity fuel).Keeps steady growing := by
  induction fuel with
  | zero => exact ⟨discipline.refl, fun machine => discipline.weaken (discipline.refl machine)⟩
  | succ fuel ih =>
      constructor
      · exact discipline.disjunction script ih (discipline.call script ih fuel) fuel
      · exact discipline.dispatch script ih verbosity fuel

end Discipline

end Onepass
