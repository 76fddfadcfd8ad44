import Onepass.Proofs.Discipline.Moving

/-! # Expressions without calls

Only a call can change what a program has stored while an expression is evaluated: everything else
looks, moves the cursor on, or makes a new array. A call is written as a name with a parenthesis after
it; the name of a property and a name after a dollar sign are no calls, whatever follows. So an
expression, evaluated to its end or to a failure, spares the machine if there is no call among the
tokens that it read.
-/

set_option autoImplicit false

namespace Onepass

/-! ## Calls in a script -/

/-- Whether a name after a token of the kind is taken for what it names, and never called. -/
def Kind.qualifies : Kind → Bool
  | .symbol .dot | .symbol .dollar => true
  | _ => false

/-- What tells a kind apart from the two tells that it does not qualify names. -/
theorem Kind.unqualifying {α : Type} (look : Kind → α) {kind : Kind} {found : α}
    (known : look kind = found) (undotted : look (.symbol .dot) ≠ found)
    (undollared : look (.symbol .dollar) ≠ found) : kind.qualifies = false := by
  unfold Kind.qualifies
  split
  · exact absurd known undotted
  · exact absurd known undollared
  · rfl

namespace Script

/-- No token before the place makes the name there one that is never called. -/
def Unqualified (script : Script) : Nat → Prop
  | 0 => True
  | before + 1 => (script.kindAt before).qualifies = false

instance (script : Script) : DecidablePred script.Unqualified
  | 0 => isTrue trivial
  | before + 1 => inferInstanceAs (Decidable ((script.kindAt before).qualifies = false))

/-- A function is called at the place. -/
def Calls (script : Script) (place : Nat) : Prop :=
  script.kindAt place = .identifier ∧ script.kindAt (place + 1) = .symbol .leftParen ∧
    script.Unqualified place

instance (script : Script) : DecidablePred script.Calls :=
  fun _ => inferInstanceAs (Decidable (_ ∧ _))

/-- No function is called from one place on and before another. -/
def CallFree (script : Script) (first last : Nat) : Prop :=
  ∀ place, first ≤ place → place < last → ¬ script.Calls place

end Script

/-- The machine is as it was, but for the cursor and for arrays that were made since. -/
structure Machine.Spared (first last : Machine) : Prop where
  scopes : last.scopes = first.scopes
  functions : last.functions = first.functions
  frames : last.frames = first.frames
  loopDepth : last.loopDepth = first.loopDepth
  returned : last.returned = first.returned
  output : last.output = first.output
  /-- The arrays that there were have their elements and their element types. -/
  arrays : first.heap.cells.toList <+: last.heap.cells.toList

namespace Machine.Spared

variable {first middle last : Machine}

theorem refl (machine : Machine) : machine.Spared machine :=
  ⟨rfl, rfl, rfl, rfl, rfl, rfl, List.prefix_rfl⟩

theorem trans (start : first.Spared middle) (rest : middle.Spared last) : first.Spared last where
  scopes := rest.scopes.trans start.scopes
  functions := rest.functions.trans start.functions
  frames := rest.frames.trans start.frames
  loopDepth := rest.loopDepth.trans start.loopDepth
  returned := rest.returned.trans start.returned
  output := rest.output.trans start.output
  arrays := start.arrays.trans rest.arrays

end Machine.Spared

/-- From one machine to another the cursor moved on, and if no function was called on the way, the
machine was spared. -/
structure Script.Passed (script : Script) (first last : Machine) : Prop where
  onward : first.cursor ≤ last.cursor
  spared : script.CallFree first.cursor last.cursor → first.Spared last

namespace Script.Passed

variable {script : Script} {first middle last : Machine}

theorem refl (machine : Machine) : script.Passed machine machine :=
  ⟨Nat.le_refl _, fun _ => .refl machine⟩

theorem trans (start : script.Passed first middle) (rest : script.Passed middle last) :
    script.Passed first last where
  onward := Nat.le_trans start.onward rest.onward
  spared free := by
    have before : first.Spared middle := start.spared fun place after early =>
      free place after (Nat.lt_of_lt_of_le early rest.onward)
    have behind : middle.Spared last := rest.spared fun place after early =>
      free place (Nat.le_trans start.onward after) early
    exact before.trans behind

theorem moved {machine : Machine} {place : Nat} (onward : machine.cursor ≤ place) :
    script.Passed machine { machine with cursor := place } :=
  ⟨onward, fun _ => ⟨rfl, rfl, rfl, rfl, rfl, rfl, List.prefix_rfl⟩⟩

theorem allocated (machine : Machine) (items : Array Value) (type : Option DeclaredType) :
    script.Passed machine { machine with heap := (machine.heap.allocate items type).1 } := by
  refine ⟨Nat.le_refl _, fun _ => ⟨rfl, rfl, rfl, rfl, rfl, rfl, ?_⟩⟩
  simp [Heap.allocate]

end Script.Passed

namespace Exec

variable {α β : Type} (script : Script)

/-! ## Calm actions -/

/-- An action moved on from where it was begun, and spared the machine if it called no function, whether
it succeeded or failed; if it succeeded, a name where it ended may be called. -/
structure Calm (machine : Machine) (outcome : EStateM.Result Failure Machine α) : Prop where
  passed : script.Passed machine (finalOf outcome)
  ends : ∀ {result final}, outcome = .ok result final → script.Unqualified final.cursor

/-- The action is calm wherever a name may be called. -/
def Quiet (action : Exec α) : Prop :=
  ∀ machine, script.Unqualified machine.cursor → Calm script machine (action machine)

variable {script} {machine : Machine}

/-- What was passed before does not count. -/
theorem Calm.after {middle : Machine} {outcome : EStateM.Result Failure Machine α}
    (passed : script.Passed machine middle) (calm : Calm script middle outcome) :
    Calm script machine outcome :=
  ⟨passed.trans calm.passed, calm.ends⟩

theorem Calm.bind {action : Exec α} {next : α → Exec β} (first : Calm script machine (action machine))
    (rest : ∀ value middle, action machine = .ok value middle → script.Unqualified middle.cursor →
      Calm script middle (next value middle)) :
    Calm script machine ((action >>= next) machine) := by
  cases ran : action machine with
  | ok value middle =>
      rw [bind_of_ok ran]
      have following := rest value middle ran (first.ends ran)
      rw [ran] at first
      exact .after first.passed following
  | error failure middle =>
      rw [bind_of_error ran]
      rw [ran] at first
      exact ⟨first.passed, nofun⟩

theorem Quiet.bind {action : Exec α} {next : α → Exec β} (first : Quiet script action)
    (rest : ∀ value, Quiet script (next value)) : Quiet script (action >>= next) :=
  fun machine start => (first machine start).bind fun value middle _ => rest value middle

/-- What only looks is calm. -/
theorem Quiet.looking {action : Exec α} (keeps : Keeps (fun first last => last = first) action) :
    Quiet script action := by
  intro machine start
  refine ⟨?_, fun ran => ?_⟩
  · rw [keeps machine]
    exact .refl machine
  · rw [keeps.ok ran]
    exact start

theorem Quiet.pure (value : α) : Quiet script (Pure.pure value : Exec α) :=
  .looking (unchanged.pure value)

theorem Quiet.throw (failure : Failure) : Quiet script (MonadExcept.throw failure : Exec α) :=
  .looking (unchanged.throw failure)

theorem Quiet.refuse (cause : Cause) (position : Position) :
    Quiet script (Exec.refuse cause position : Exec α) :=
  .looking (unchanged.refuse cause position)

theorem Quiet.guarded (condition : Prop) [Decidable condition] {stop : Exec Unit}
    {next : Unit → Exec β} (stops : Quiet script stop) (rest : Quiet script (next ())) :
    Quiet script (if condition then stop >>= next else next ()) := by
  split
  · exact stops.bind fun _ => rest
  · exact rest

theorem Quiet.allocate (items : List Value) (type : Option DeclaredType) :
    Quiet script (Exec.allocate items type) := by
  intro machine start
  refine ⟨.allocated machine items.toArray type, ?_⟩
  rintro _ _ ⟨⟩
  exact start

/-! ## Reading tokens -/

theorem Calm.read (proper : script.kindAt machine.cursor ≠ .endOfInput)
    (plain : (script.kindAt machine.cursor).qualifies = false) :
    Calm script machine (Exec.advance script machine) := by
  rw [advance_eq proper]
  exact ⟨.moved (Nat.le_succ _), by rintro _ _ ⟨⟩; exact plain⟩

theorem Calm.advance (start : script.Unqualified machine.cursor)
    (plain : (script.kindAt machine.cursor).qualifies = false) :
    Calm script machine (Exec.advance script machine) := by
  by_cases ended : script.kindAt machine.cursor = .endOfInput
  · rw [advance_of_ended ended]
    exact ⟨.refl machine, by rintro _ _ ⟨⟩; exact start⟩
  · exact .read ended plain

theorem Quiet.accept {kind : Kind} (plain : kind.qualifies = false) :
    Quiet script (Exec.accept script kind) := by
  intro machine start
  change Calm script machine ((if script.kindAt machine.cursor = kind then _ else _ : Exec Bool) machine)
  split
  case _ there =>
    exact (Calm.advance start (by rw [there]; exact plain)).bind fun _ => fun middle _ => Quiet.pure _ middle
  case _ => exact Quiet.pure false machine start

/-- A token that has to be there may stand anywhere, also behind one that qualifies names. -/
theorem Calm.expect {kind : Kind} (proper : kind ≠ .endOfInput) (plain : kind.qualifies = false)
    (machine : Machine) : Calm script machine (Exec.expect script kind machine) := by
  change Calm script machine ((if script.kindAt machine.cursor = kind then _ else _ : Exec Token) machine)
  split
  case _ there => exact .read (by rw [there]; exact proper) (by rw [there]; exact plain)
  case _ => exact ⟨.refl machine, nofun⟩

theorem Quiet.expectSymbol {mark : Symbol} (plain : (Kind.symbol mark).qualifies = false) :
    Quiet script (Exec.expectSymbol script mark) :=
  fun machine _ => (Calm.expect (by simp) plain machine).bind fun _ middle _ => Quiet.pure () middle

/-- The token that qualifies a name is read together with the name. -/
theorem Calm.qualified {next : Token → Exec β} (proper : script.kindAt machine.cursor ≠ .endOfInput)
    (rest : ∀ token, Quiet script (next token)) :
    Calm script machine ((do
      let _ ← Exec.advance script
      next (← Exec.expect script .identifier) : Exec β) machine) := by
  rw [bind_of_ok (advance_eq proper)]
  refine Calm.after (.moved (Nat.le_succ _)) ?_
  exact (Calm.expect (by simp) rfl _).bind fun name middle _ => rest name middle

/-- What is done next depends on the token at the cursor. -/
theorem Quiet.kind {next : Kind → Exec β} (rest : ∀ machine, script.Unqualified machine.cursor →
      Calm script machine (next (script.kindAt machine.cursor) machine)) :
    Quiet script (Exec.currentKind script >>= next) :=
  rest

theorem Quiet.token {next : Token → Exec β} (rest : ∀ machine, script.Unqualified machine.cursor →
      Calm script machine (next (script.tokenAt machine.cursor) machine)) :
    Quiet script (Exec.current script >>= next) :=
  rest

theorem Quiet.separated {closing : Symbol} {item : Exec α} (quiet : Quiet script item) (fuel : Nat) :
    Quiet script (Exec.separated script closing item fuel) := by
  induction fuel with
  | zero => exact .throw _
  | succ fuel ih =>
      refine (Quiet.looking (unchanged.currentKind script)).bind fun found => ?_
      split
      · exact .pure _
      · refine quiet.bind fun first => ?_
        refine (Quiet.accept rfl).bind fun more => ?_
        split
        · exact ih.bind fun _ => .pure _
        · exact .pure _

/-! ## Literals -/

variable {evaluator : Evaluator}

theorem stringLiteral_quiet (fuel : Nat) : Quiet script (stringLiteral script fuel) := by
  induction fuel with
  | zero => exact .throw _
  | succ fuel ih =>
      unfold stringLiteral
      refine Quiet.kind fun machine start => ?_
      generalize known : script.kindAt machine.cursor = found
      split
      case _ =>
        refine (Calm.advance start (by rw [known]; rfl)).bind fun token middle _ => ?_
        exact (ih.bind fun _ => .pure _) middle
      case _ =>
        refine (Calm.advance start (by rw [known]; rfl)).bind fun token middle _ => ?_
        refine (Quiet.looking (unchanged.valueOf token)).bind (fun value => ?_) middle
        refine (Quiet.looking (unchanged.printed value)).bind fun text => ?_
        exact ih.bind fun _ => .pure _
      case _ => exact Quiet.pure "" machine start

theorem checkedArray_quiet (element : DeclaredType) {item : Exec Value} (quiet : Quiet script item)
    (fuel : Nat) : Quiet script (checkedArray script element item fuel) := by
  refine (Quiet.expectSymbol rfl).bind fun _ => ?_
  refine (Quiet.separated ?_ fuel).bind fun items => ?_
  · refine (Quiet.looking (unchanged.current script)).bind fun token => ?_
    refine quiet.bind fun value => ?_
    refine (Quiet.looking (unchanged.conforms value element)).bind fun fits => ?_
    split
    · exact .pure _
    · exact (Quiet.looking (unchanged.describe value)).bind fun _ => .refuse _ _
  · exact (Quiet.expectSymbol rfl).bind fun _ => .allocate items _

theorem declaredArray_quiet (quiet : Quiet script evaluator.expression) (fuel : Nat) (base : String)
    (dimensions : Nat) : Quiet script (declaredArray script evaluator fuel base dimensions) := by
  induction dimensions with
  | zero => exact checkedArray_quiet _ quiet fuel
  | succ dimensions ih =>
      apply checkedArray_quiet
      refine (Quiet.looking (unchanged.currentKind script)).bind fun found => ?_
      split
      · exact ih
      · exact quiet

theorem freeArray_quiet (quiet : Quiet script evaluator.expression) (fuel : Nat) :
    Quiet script (freeArray script evaluator fuel) := by
  refine (Quiet.expectSymbol rfl).bind fun _ => ?_
  refine (quiet.separated fuel).bind fun items => ?_
  refine (Quiet.expectSymbol rfl).bind fun _ => ?_
  refine (Quiet.looking unchanged.get).bind fun machine => ?_
  split
  · exact .allocate items _
  · exact (Quiet.looking (unchanged.current script)).bind fun _ => .refuse _ _

/-! ## Calls -/

/-- Whatever a call does, the cursor comes back. -/
theorem performCall_cursor (evaluator : Evaluator) (name : Token) (given : List (Token × Value))
    (fuel : Nat) :
    Keeps (fun first last => last.cursor = first.cursor) (performCall evaluator name given fuel) := by
  let returns : Machine → Machine → Prop := fun first last => last.cursor = first.cursor
  have standing : Standing returns := ⟨fun _ => rfl, fun start rest => rest.trans start⟩
  refine standing.bind standing.get fun machine => ?_
  split
  · exact standing.refuse _ _
  · split
    · exact standing.refuse _ _
    · refine standing.bind (standing.checkArguments _ _) fun _ => ?_
      refine standing.bind standing.get fun machine => ?_
      split
      · exact standing.refuse _ _
      · intro machine
        rw [invoke_eq]
        refine related_bind standing.trans (?_ : returns machine _) fun ended middle _ =>
          standing.callResult _ name ended middle
        rw [finalOf_ensuring]
        rfl

/-- What a call does behind its opening parenthesis. -/
def callArguments (script : Script) (evaluator : Evaluator) (name : Token) (fuel : Nat) :
    Exec Value := do
  let given ← arguments script evaluator fuel
  expectSymbol script .rightParen
  performCall evaluator name given fuel

theorem call_of_named {fuel : Nat} (named : script.kindAt machine.cursor = .identifier)
    (opened : script.kindAt (machine.cursor + 1) = .symbol .leftParen) :
    call script evaluator fuel machine =
      callArguments script evaluator (script.tokenAt machine.cursor) fuel
        { machine with cursor := machine.cursor + 2 } := by
  have symbol : expectSymbol script .leftParen { machine with cursor := machine.cursor + 1 } =
      .ok () { machine with cursor := machine.cursor + 2 } := by
    rw [expectSymbol, bind_of_ok (expect_eq opened (by simp))]
    rfl
  rw [call_eq, bind_of_ok (expect_eq named (by simp)), bind_of_ok symbol]
  rfl

theorem arguments_quiet (quiet : Quiet script evaluator.expression) (fuel : Nat) :
    Quiet script (arguments script evaluator fuel) := by
  refine Quiet.separated ?_ fuel
  refine (Quiet.looking (unchanged.current script)).bind fun token => ?_
  exact quiet.bind fun _ => .pure _

theorem callArguments_onward (quiet : Quiet script evaluator.expression) (name : Token) (fuel : Nat)
    {machine : Machine} (start : script.Unqualified machine.cursor) :
    machine.cursor ≤ (finalOf (callArguments script evaluator name fuel machine)).cursor := by
  let onwards : Machine → Machine → Prop := fun first last => first.cursor ≤ last.cursor
  have trans {first middle last : Machine} (start : onwards first middle)
      (rest : onwards middle last) : onwards first last := Nat.le_trans start rest
  have reads := arguments_quiet quiet fuel machine start
  change onwards machine (finalOf (callArguments script evaluator name fuel machine))
  refine related_bind trans reads.passed.onward fun given middle read => ?_
  refine related_bind trans (Quiet.expectSymbol rfl middle (reads.ends read)).passed.onward
    fun _ behind _ => ?_
  exact Nat.le_of_eq (performCall_cursor evaluator name given fuel behind).symm

/-- Where a call ends, a parenthesis was closed. -/
theorem callArguments_ends {name : Token} {fuel : Nat} {value : Value} {final : Machine}
    (ran : callArguments script evaluator name fuel machine = .ok value final) :
    script.Unqualified final.cursor := by
  obtain ⟨given, middle, read, ran⟩ := bind_ok ran
  obtain ⟨_, behind, closed, ran⟩ := bind_ok ran
  obtain ⟨closing, rfl⟩ := expectSymbol_ok closed
  rw [(performCall_cursor evaluator name given fuel).ok ran]
  change (script.kindAt middle.cursor).qualifies = false
  rw [closing]
  rfl

/-- A call reads its own name, so it does not go unnoticed. -/
theorem call_calm (quiet : Quiet script evaluator.expression) (fuel : Nat)
    (start : script.Unqualified machine.cursor)
    (named : script.kindAt machine.cursor = .identifier)
    (opened : script.kindAt (machine.cursor + 1) = .symbol .leftParen) :
    Calm script machine (call script evaluator fuel machine) := by
  let inside : Machine := { machine with cursor := machine.cursor + 2 }
  have within : script.Unqualified inside.cursor := by
    change (script.kindAt (machine.cursor + 1)).qualifies = false
    rw [opened]
    rfl
  have onward : inside.cursor ≤ _ :=
    callArguments_onward quiet (script.tokenAt machine.cursor) fuel within
  rw [call_of_named named opened]
  refine ⟨⟨Nat.le_trans (Nat.le_add_right _ 2) onward, fun free => ?_⟩, callArguments_ends⟩
  exact absurd ⟨named, opened, start⟩
    (free machine.cursor (Nat.le_refl _) (Nat.lt_of_lt_of_le (by simp [inside]) onward))

/-! ## Operators -/

theorem chain_quiet {operand : Exec Value} (quiet : Quiet script operand) (rank : Rank) (fuel : Nat)
    (left : Value) : Quiet script (chain script rank operand fuel left) := by
  induction fuel generalizing left with
  | zero => exact .throw _
  | succ fuel ih =>
      unfold chain
      refine Quiet.token fun machine start => ?_
      generalize known : (script.tokenAt machine.cursor).kind.binaryOf? rank = operator
      cases operator with
      | some operator =>
          have plain : (script.kindAt machine.cursor).qualifies = false :=
            Kind.unqualifying (·.binaryOf? rank) known nofun nofun
          refine (Calm.advance start plain).bind fun _ middle _ => ?_
          refine quiet.bind (fun right => ?_) middle
          exact (Quiet.looking (unchanged.applyBinary _ operator left right)).bind ih
      | none => exact Quiet.pure left machine start

theorem ranked_quiet {operand : Exec Value} (quiet : Quiet script operand) (rank : Rank) (fuel : Nat) :
    Quiet script (ranked script rank operand fuel) :=
  quiet.bind fun left => chain_quiet quiet rank fuel left

theorem typeTests_quiet (fuel : Nat) (value : Value) : Quiet script (typeTests script fuel value) := by
  induction fuel generalizing value with
  | zero => exact .throw _
  | succ fuel ih =>
      unfold typeTests
      refine Quiet.kind fun machine start => ?_
      split
      case _ tests =>
        have plain : (script.kindAt machine.cursor).qualifies = false := by
          rcases tests with same | same <;> rw [same] <;> rfl
        refine (Calm.advance start plain).bind fun _ middle _ within => ?_
        refine Quiet.token (fun middle within => ?_) middle within
        split
        case _ named =>
          have unqualifying : (script.kindAt middle.cursor).qualifies = false :=
            Kind.unqualifying Kind.isType named (by decide) (by decide)
          refine (Calm.advance within unqualifying).bind fun _ behind _ => ?_
          exact (Quiet.looking (unchanged.testOrConvert _ value _)).bind ih behind
        case _ => exact Quiet.refuse _ _ middle within
      case _ => exact Quiet.pure value machine start

/-! ## Operands -/

section

variable {call : Exec Value} (quiet : Quiet script evaluator.expression)
  (calls : ∀ machine, script.Unqualified machine.cursor →
    script.kindAt machine.cursor = .identifier →
      script.kindAt (machine.cursor + 1) = .symbol .leftParen → Calm script machine (call machine))

include quiet

theorem suffixes_quiet (fuel : Nat) (value : Value) :
    Quiet script (suffixes script evaluator fuel value) := by
  induction fuel generalizing value with
  | zero => exact .throw _
  | succ fuel ih =>
      unfold suffixes
      refine Quiet.kind fun machine start => ?_
      generalize known : script.kindAt machine.cursor = found
      split
      case _ =>
        refine (Calm.advance start (by rw [known]; rfl)).bind fun _ middle _ => ?_
        refine (Quiet.looking (unchanged.current script)).bind (fun token => ?_) middle
        refine quiet.bind fun index => ?_
        refine (Quiet.expectSymbol rfl).bind fun _ => ?_
        exact (Quiet.looking (unchanged.elementAt value index token)).bind ih
      case _ =>
        refine Calm.qualified (by rw [known]; simp) fun member => ?_
        split
        · exact .refuse _ _
        · exact (Quiet.looking (unchanged.lengthOf value member)).bind ih
      case _ => exact Quiet.pure value machine start

include calls

theorem primary_quiet (fuel : Nat) : Quiet script (primary script evaluator call fuel) := by
  refine Quiet.token fun machine start => ?_
  generalize known : (script.tokenAt machine.cursor).kind = kind
  replace known : script.kindAt machine.cursor = kind := known
  have reading (plain : kind.qualifies = false) {next : Token → Exec Value}
      (rest : ∀ token, Quiet script (next token)) :
      Calm script machine ((advance script >>= next) machine) :=
    (Calm.advance start (by rw [known]; exact plain)).bind fun token middle _ => rest token middle
  split
  · exact reading rfl fun _ => .pure _
  · exact ((stringLiteral_quiet fuel).bind fun _ => .pure _) machine start
  · exact ((stringLiteral_quiet fuel).bind fun _ => .pure _) machine start
  · refine reading rfl fun _ => ?_
    split
    · exact .refuse _ _
    · exact .pure _
  · exact reading rfl fun _ => .pure _
  · exact reading rfl fun _ => .pure _
  · refine reading rfl fun _ => ?_
    refine quiet.bind fun value => ?_
    exact (Quiet.expectSymbol rfl).bind fun _ => .pure value
  · exact freeArray_quiet quiet fuel machine start
  · change Calm script machine ((if script.kindAt (machine.cursor + 1) = .symbol .leftParen then call
      else _ : Exec Value) machine)
    split
    case _ opened => exact calls machine start known opened
    case _ => exact reading rfl fun _ => .looking (unchanged.valueOf _)
  · exact Calm.qualified (by rw [known]; simp) fun name => .looking (unchanged.valueOf name)
  · exact Quiet.refuse _ _ machine start

theorem unary_quiet (fuel : Nat) : Quiet script (unary script evaluator call fuel) := by
  induction fuel with
  | zero => exact .throw _
  | succ fuel ih =>
      unfold unary
      refine Quiet.token fun machine start => ?_
      generalize known : (script.tokenAt machine.cursor).kind.unary? = operator
      cases operator with
      | some operator =>
          have plain : (script.kindAt machine.cursor).qualifies = false :=
            Kind.unqualifying Kind.unary? known nofun nofun
          refine (Calm.advance start plain).bind fun _ middle _ => ?_
          refine ih.bind (fun value => ?_) middle
          exact .looking (unchanged.located _ _)
      | none =>
          exact ((primary_quiet quiet calls fuel).bind fun value =>
            suffixes_quiet quiet fuel value) machine start

theorem typeTest_quiet (fuel : Nat) : Quiet script (typeTest script evaluator call fuel) := by
  have sums : Quiet script (additive script evaluator call fuel) :=
    ranked_quiet (ranked_quiet (unary_quiet quiet calls fuel) .product fuel) .sum fuel
  exact sums.bind fun value => typeTests_quiet fuel value

theorem comparison_quiet (fuel : Nat) : Quiet script (comparison script evaluator call fuel) := by
  have operand := typeTest_quiet quiet calls fuel
  refine operand.bind fun left => ?_
  refine Quiet.token fun machine start => ?_
  generalize known : (script.tokenAt machine.cursor).kind.binaryOf? .comparison = operator
  cases operator with
  | some operator =>
      have plain : (script.kindAt machine.cursor).qualifies = false :=
        Kind.unqualifying (·.binaryOf? .comparison) known nofun nofun
      refine (Calm.advance start plain).bind fun _ middle _ => ?_
      exact operand.bind (fun right => .looking (unchanged.applyBinary _ operator left right)) middle
  | none => exact Quiet.pure left machine start

theorem disjunction_quiet (fuel : Nat) : Quiet script (disjunction script evaluator call fuel) :=
  ranked_quiet (ranked_quiet (comparison_quiet quiet calls fuel) .conjunction fuel) .disjunction fuel

end

/-- Every expression is calm: without a call it spares the machine, whether it succeeds or fails. -/
theorem expression_quiet (script : Script) (verbosity fuel : Nat) :
    Quiet script (expression script verbosity fuel) := by
  induction fuel with
  | zero => exact .throw _
  | succ fuel ih =>
      let evaluator := Exec.evaluator script verbosity fuel
      have quiet : Quiet script evaluator.expression := ih
      exact disjunction_quiet quiet (fun machine start => call_calm quiet fuel start) fuel

end Exec

end Onepass
