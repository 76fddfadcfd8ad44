import Onepass.Execution.Evaluator

/-! # Outcomes of actions

What the proofs say about actions in general: the parts of an action that succeeds, and the
relations between the machine before an action and the machine after it, on success and on failure
alike.
-/

set_option autoImplicit false

namespace Onepass.Exec

variable {α β : Type}

deriving instance DecidableEq for EStateM.Result

/-- The machine that an action leaves, whether it succeeds or fails. -/
def finalOf : EStateM.Result Failure Machine α → Machine
  | .ok _ final => final
  | .error _ final => final

theorem bind_ok {action : Exec α} {next : α → Exec β} {machine final : Machine} {result : β}
    (succeeded : (action >>= next) machine = .ok result final) :
    ∃ value middle, action machine = .ok value middle ∧ next value middle = .ok result final := by
  change EStateM.bind action next machine = .ok result final at succeeded
  unfold EStateM.bind at succeeded
  cases first : action machine with
  | ok value middle => exact ⟨value, middle, rfl, by simpa only [first] using succeeded⟩
  | error failure middle => simp only [first] at succeeded; cases succeeded

theorem bind_of_ok {action : Exec α} {machine middle : Machine} {value : α}
    (first : action machine = .ok value middle) (next : α → Exec β) :
    (action >>= next) machine = next value middle := by
  change EStateM.bind action next machine = next value middle
  unfold EStateM.bind
  rw [first]

theorem bind_of_error {action : Exec α} {machine middle : Machine} {failure : Failure}
    (first : action machine = .error failure middle) (next : α → Exec β) :
    (action >>= next) machine = .error failure middle := by
  change EStateM.bind action next machine = .error failure middle
  unfold EStateM.bind
  rw [first]

/-- What follows an action depends on its outcome only. -/
theorem bind_of_same {action other : Exec α} {machine start : Machine}
    (same : action machine = other start) (next : α → Exec β) :
    (action >>= next) machine = (other >>= next) start := by
  change EStateM.bind action next machine = EStateM.bind other next start
  unfold EStateM.bind
  rw [same]

theorem pure_ok {value result : α} {machine final : Machine}
    (succeeded : (pure value : Exec α) machine = .ok result final) :
    result = value ∧ final = machine := by
  cases succeeded
  exact ⟨rfl, rfl⟩

theorem get_ok {value machine final : Machine}
    (succeeded : (get : Exec Machine) machine = .ok value final) :
    value = machine ∧ final = machine := by
  cases succeeded
  exact ⟨rfl, rfl⟩

theorem get_bind_ok {next : Machine → Exec β} {machine final : Machine} {result : β}
    (succeeded : (get >>= next) machine = .ok result final) :
    next machine machine = .ok result final :=
  succeeded

theorem get_bind_eq (next : Machine → Exec β) (machine : Machine) :
    ((get : Exec Machine) >>= next) machine = next machine machine :=
  rfl

theorem throw_ne_ok {failure : Failure} {machine final : Machine} {result : α} :
    (throw failure : Exec α) machine ≠ .ok result final := by
  intro succeeded
  cases succeeded

theorem refuse_ne_ok {cause : Cause} {position : Position} {machine final : Machine} {result : α} :
    (refuse cause position : Exec α) machine ≠ .ok result final :=
  throw_ne_ok

/-- A refusal that needs a look at the machine first. -/
theorem bind_refuse_ne_ok {action : Exec α} {cause : α → Cause} {position : α → Position}
    {machine final : Machine} {result : β} :
    (action >>= fun value => refuse (cause value) (position value)) machine ≠ .ok result final := by
  intro succeeded
  obtain ⟨_, _, _, refused⟩ := bind_ok succeeded
  exact absurd refused refuse_ne_ok

theorem ensuring_ok {tidy : Machine → Machine} {action : Exec α} {machine final : Machine}
    {result : α} (succeeded : ensuring tidy action machine = .ok result final) :
    ∃ middle, action machine = .ok result middle ∧ final = tidy middle := by
  unfold ensuring at succeeded
  cases ran : action machine with
  | ok value middle =>
      simp only [ran] at succeeded
      cases succeeded
      exact ⟨middle, rfl, rfl⟩
  | error failure middle => simp only [ran] at succeeded; cases succeeded

@[simp] theorem finalOf_ensuring (tidy : Machine → Machine) (action : Exec α) (machine : Machine) :
    finalOf (ensuring tidy action machine) = tidy (finalOf (action machine)) := by
  unfold ensuring
  cases action machine <;> rfl

/-- A check before the rest of an action that succeeds was passed. -/
theorem guarded_ok {condition : Prop} [Decidable condition] {cause : Cause} {position : Position}
    {next : Unit → Exec β} {machine final : Machine} {result : β}
    (succeeded : (if condition then refuse cause position >>= next else next ()) machine =
      .ok result final) : ¬ condition ∧ next () machine = .ok result final := by
  by_cases holds : condition
  · rw [if_pos holds] at succeeded
    obtain ⟨_, _, refused, _⟩ := bind_ok succeeded
    exact absurd refused refuse_ne_ok
  · rw [if_neg holds] at succeeded
    exact ⟨holds, succeeded⟩

/-! ## Reading the script -/

section

variable {script : Script} {machine final : Machine}

theorem currentKind_ok {kind : Kind}
    (succeeded : currentKind script machine = .ok kind final) :
    kind = script.kindAt machine.cursor ∧ final = machine := by
  cases succeeded
  exact ⟨rfl, rfl⟩

theorem followingKind_ok {kind : Kind}
    (succeeded : followingKind script machine = .ok kind final) :
    kind = script.kindAt (machine.cursor + 1) ∧ final = machine := by
  cases succeeded
  exact ⟨rfl, rfl⟩

theorem current_bind_ok {next : Token → Exec β} {result : β}
    (succeeded : (current script >>= next) machine = .ok result final) :
    next (script.tokenAt machine.cursor) machine = .ok result final :=
  succeeded

theorem currentKind_bind_ok {next : Kind → Exec β} {result : β}
    (succeeded : (currentKind script >>= next) machine = .ok result final) :
    next (script.kindAt machine.cursor) machine = .ok result final :=
  succeeded

theorem followingKind_bind_ok {next : Kind → Exec β} {result : β}
    (succeeded : (followingKind script >>= next) machine = .ok result final) :
    next (script.kindAt (machine.cursor + 1)) machine = .ok result final :=
  succeeded

theorem moveTo_bind_ok {place : Nat} {next : Unit → Exec β} {result : β}
    (succeeded : (moveTo place >>= next) machine = .ok result final) :
    next () { machine with cursor := place } = .ok result final :=
  succeeded

theorem advance_eq (proper : script.kindAt machine.cursor ≠ .endOfInput) :
    advance script machine =
      .ok (script.tokenAt machine.cursor) { machine with cursor := machine.cursor + 1 } := by
  change (if script.kindAt machine.cursor ≠ .endOfInput then _ else _ : Exec Token) machine = _
  rw [if_pos proper]
  rfl

/-- Nothing is read at the end. -/
theorem advance_of_ended (ended : script.kindAt machine.cursor = .endOfInput) :
    advance script machine = .ok (script.tokenAt machine.cursor) machine := by
  change (if script.kindAt machine.cursor ≠ .endOfInput then _ else _ : Exec Token) machine = _
  rw [if_neg (not_not_intro ended)]
  rfl

theorem accept_of_there {kind : Kind} (there : script.kindAt machine.cursor = kind)
    (proper : kind ≠ .endOfInput) :
    accept script kind machine = .ok true { machine with cursor := machine.cursor + 1 } := by
  change (if script.kindAt machine.cursor = kind then _ else _ : Exec Bool) machine = _
  rw [if_pos there, bind_of_ok (advance_eq (there ▸ proper))]
  rfl

theorem accept_of_absent {kind : Kind} (absent : script.kindAt machine.cursor ≠ kind) :
    accept script kind machine = .ok false machine := by
  change (if script.kindAt machine.cursor = kind then _ else _ : Exec Bool) machine = _
  rw [if_neg absent]
  rfl

theorem expect_eq {kind : Kind} (known : script.kindAt machine.cursor = kind)
    (proper : kind ≠ .endOfInput) :
    expect script kind machine =
      .ok (script.tokenAt machine.cursor) { machine with cursor := machine.cursor + 1 } := by
  change (if script.kindAt machine.cursor = kind then _ else _ : Exec Token) machine = _
  rw [if_pos known]
  exact advance_eq (known ▸ proper)

theorem advance_bind_ok {next : Token → Exec β} {result : β}
    (proper : script.kindAt machine.cursor ≠ .endOfInput)
    (succeeded : (advance script >>= next) machine = .ok result final) :
    next (script.tokenAt machine.cursor) { machine with cursor := machine.cursor + 1 } =
      .ok result final := by
  rwa [bind_of_ok (advance_eq proper)] at succeeded

/-- A token that was accepted was there, and the cursor stands behind it; otherwise nothing
changed. -/
theorem accept_ok {kind : Kind} (proper : kind ≠ .endOfInput) {accepted : Bool}
    (succeeded : accept script kind machine = .ok accepted final) :
    (accepted = true ∧ script.kindAt machine.cursor = kind ∧
        final = { machine with cursor := machine.cursor + 1 }) ∨
      (accepted = false ∧ script.kindAt machine.cursor ≠ kind ∧ final = machine) := by
  by_cases there : script.kindAt machine.cursor = kind
  · rw [accept_of_there there proper] at succeeded
    cases succeeded
    exact .inl ⟨rfl, there, rfl⟩
  · rw [accept_of_absent there] at succeeded
    cases succeeded
    exact .inr ⟨rfl, there, rfl⟩

theorem expect_ok {kind : Kind} (proper : kind ≠ .endOfInput) {token : Token}
    (succeeded : expect script kind machine = .ok token final) :
    script.kindAt machine.cursor = kind ∧ token = script.tokenAt machine.cursor ∧
      final = { machine with cursor := machine.cursor + 1 } := by
  obtain ⟨found, same, looked, rest⟩ := bind_ok succeeded
  obtain ⟨rfl, rfl⟩ := currentKind_ok looked
  by_cases there : script.kindAt same.cursor = kind
  · rw [if_pos there, advance_eq (by rw [there]; exact proper)] at rest
    cases rest
    exact ⟨there, rfl, rfl⟩
  · rw [if_neg there] at rest
    exact absurd rest bind_refuse_ne_ok

theorem expectSymbol_ok {mark : Symbol} {result : Unit}
    (succeeded : expectSymbol script mark machine = .ok result final) :
    script.kindAt machine.cursor = .symbol mark ∧
      final = { machine with cursor := machine.cursor + 1 } := by
  obtain ⟨token, middle, read, rest⟩ := bind_ok succeeded
  obtain ⟨there, -, rfl⟩ := expect_ok (by simp) read
  cases rest
  exact ⟨there, rfl⟩

theorem expect_bind_ok {kind : Kind} (proper : kind ≠ .endOfInput) {next : Token → Exec β}
    {result : β} (succeeded : (expect script kind >>= next) machine = .ok result final) :
    script.kindAt machine.cursor = kind ∧
      next (script.tokenAt machine.cursor) { machine with cursor := machine.cursor + 1 } =
        .ok result final := by
  obtain ⟨token, middle, read, rest⟩ := bind_ok succeeded
  obtain ⟨there, rfl, rfl⟩ := expect_ok proper read
  exact ⟨there, rest⟩

theorem expectSymbol_bind_ok {mark : Symbol} {next : Unit → Exec β} {result : β}
    (succeeded : (expectSymbol script mark >>= next) machine = .ok result final) :
    script.kindAt machine.cursor = .symbol mark ∧
      next () { machine with cursor := machine.cursor + 1 } = .ok result final := by
  obtain ⟨_, middle, read, rest⟩ := bind_ok succeeded
  obtain ⟨there, rfl⟩ := expectSymbol_ok read
  exact ⟨there, rest⟩

/-- Reading the semicolon that may follow never fails. -/
theorem acceptSemicolon_eq (script : Script) (machine : Machine) :
    acceptSemicolon script machine = .ok () { machine with
      cursor := if script.kindAt machine.cursor = .symbol .semicolon then machine.cursor + 1
        else machine.cursor } := by
  by_cases there : script.kindAt machine.cursor = .symbol .semicolon
  · rw [if_pos there, acceptSemicolon, bind_of_ok (accept_of_there there (by simp))]
    rfl
  · rw [if_neg there, acceptSemicolon, bind_of_ok (accept_of_absent there)]
    rfl

end

theorem bindingOf_eq {machine : Machine} {name : Token} {binding : Binding}
    (bound : machine.scopes.lookup? name.word = some binding) :
    bindingOf name machine = .ok binding machine := by
  rw [bindingOf, get_bind_eq, bound]
  rfl

theorem bindingOf_ok {machine final : Machine} {name : Token} {binding : Binding}
    (looked : bindingOf name machine = .ok binding final) :
    machine.scopes.lookup? name.word = some binding ∧ final = machine := by
  have looked := get_bind_ok looked
  cases found : machine.scopes.lookup? name.word with
  | some known =>
      rw [found] at looked
      cases looked
      exact ⟨rfl, rfl⟩
  | none =>
      rw [found] at looked
      cases looked

/-- The machine when a statement was counted and before it is executed. -/
def observed (script : Script) (verbosity : Nat) (machine : Machine) : Machine :=
  finalOf (observe verbosity (script.tokenAt machine.cursor) machine)

/-- A statement is counted, and then the kind of its first token tells what it is. -/
theorem dispatch_eq (script : Script) (verbosity : Nat) (evaluator : Evaluator) (fuel : Nat)
    (machine : Machine) :
    dispatch script verbosity evaluator fuel machine =
      perform script evaluator fuel (script.kindAt machine.cursor)
        (script.tokenAt machine.cursor).position (observed script verbosity machine) := rfl

/-- The innermost call tells what a `return` gives. -/
theorem returnFrom_eq {script : Script} {evaluator : Evaluator} {machine : Machine}
    (returns : script.kindAt machine.cursor = .keyword .returnWord) :
    returnFrom script evaluator machine =
      (match machine.frames with
        | [] => refuse .returnOutsideFunction (script.tokenAt machine.cursor).position
        | function :: _ => do
          let value ← returnedValue script evaluator function (script.tokenAt machine.cursor)
          retag value function.returnType
          giveBack value
          acceptSemicolon script
          return .returning : Exec Signal) { machine with cursor := machine.cursor + 1 } := by
  rw [returnFrom, bind_of_ok (advance_eq (by rw [returns]; simp))]
  rfl

/-- The body of a function is executed on the machine of the call, and then the caller is put
back. -/
theorem invoke_eq (evaluator : Evaluator) (function : Function) (arguments : List Value)
    (name : Token) (fuel : Nat) (machine : Machine) :
    invoke evaluator function arguments name fuel machine =
      (ensuring (leaveCall machine.cursor machine.loopDepth)
          (callBody evaluator.statement function.finish fuel) >>=
        callResult function name) (enterCall function arguments machine) := rfl

/-- Looks a function up, checks the given arguments against it and calls it. -/
def performCall (evaluator : Evaluator) (name : Token) (given : List (Token × Value)) (fuel : Nat) :
    Exec Value := do
  match (← get).functions.lookup? name.word with
  | none => refuse (.undefinedFunction name.word) name.position
  | some function =>
    if given.length ≠ function.arity then
      refuse (.argumentCount name.word function.arity given.length) name.position
    else
      checkArguments name.word (function.parameters.zip given)
      if maxCallDepth ≤ (← get).frames.length then
        refuse (.callDepth maxCallDepth) name.position
      else
        invoke evaluator function (given.map Prod.snd) name fuel

/-- A call is performed once its arguments were read. -/
theorem call_eq (script : Script) (evaluator : Evaluator) (fuel : Nat) :
    call script evaluator fuel = (do
      let name ← expect script .identifier
      expectSymbol script .leftParen
      let given ← arguments script evaluator fuel
      expectSymbol script .rightParen
      performCall evaluator name given fuel) := rfl

/-- Reads the declaration of a function and gives the function with the token of its name. Its body is
passed over. -/
def declaredFunction (script : Script) (fuel : Nat) : Exec (Function × Token) := do
  let _ ← expect script (.keyword .funcWord)
  let name ← expect script .identifier
  expectSymbol script .leftParen
  let signature ← parameters script name.word [] fuel
  expectSymbol script .rightParen
  let returnType := (← parameters.optionalType script).getD .void
  if (← currentKind script) ≠ .symbol .leftBrace then
    refuseToken script (.symbol .leftBrace)
  let start := (← get).cursor + 1
  passOver script.bracesEnd
  let finish := (← get).cursor - 1
  return (⟨name.word, signature, returnType, start, finish⟩, name)

/-- A function is registered once its declaration was read. -/
theorem functionDeclaration_eq (script : Script) (fuel : Nat) :
    functionDeclaration script fuel = (do
      let (function, name) ← declaredFunction script fuel
      register function name.position) := by
  unfold functionDeclaration declaredFunction
  simp only [bind_assoc]
  refine bind_congr fun _ => bind_congr fun name => bind_congr fun _ => bind_congr fun signature =>
    bind_congr fun _ => bind_congr fun result => bind_congr fun found => ?_
  -- The rest of the reading stands behind the check for the brace, once for each answer.
  split <;> simp only [bind_assoc, pure_bind]

/-! ## Relations that actions keep -/

/-- The machine before the action and the one after it, whatever its outcome, are related. -/
def Keeps (relation : Machine → Machine → Prop) (action : Exec α) : Prop :=
  ∀ machine, relation machine (finalOf (action machine))

theorem Keeps.ok {relation : Machine → Machine → Prop} {action : Exec α}
    (keeps : Keeps relation action) {machine final : Machine} {result : α}
    (succeeded : action machine = .ok result final) : relation machine final := by
  have related := keeps machine
  rwa [succeeded] at related

theorem Keeps.weaken {relation wider : Machine → Machine → Prop} {action : Exec α}
    (keeps : Keeps relation action) (implied : ∀ {first last}, relation first last → wider first last) :
    Keeps wider action :=
  fun machine => implied (keeps machine)

/-- A sequence keeps a transitive relation to some machine that both actions keep. What the second one
does may depend on how the first one ended. -/
theorem related_bind {relation : Machine → Machine → Prop} {action : Exec α} {next : α → Exec β}
    {origin machine : Machine}
    (trans : ∀ {first middle last}, relation first middle → relation middle last → relation first last)
    (first : relation origin (finalOf (action machine)))
    (rest : ∀ value middle, action machine = .ok value middle →
      relation middle (finalOf (next value middle))) :
    relation origin (finalOf ((action >>= next) machine)) := by
  change relation origin (finalOf (EStateM.bind action next machine))
  unfold EStateM.bind
  cases ran : action machine with
  | ok value middle =>
      rw [ran] at first
      exact trans first (rest value middle ran)
  | error failure middle => rwa [ran] at first

theorem Keeps.bind {relation : Machine → Machine → Prop} {action : Exec α} {next : α → Exec β}
    (trans : ∀ {first middle last}, relation first middle → relation middle last → relation first last)
    (first : Keeps relation action) (rest : ∀ value, Keeps relation (next value)) :
    Keeps relation (action >>= next) :=
  fun machine => related_bind trans (first machine) fun value middle _ => rest value middle

end Onepass.Exec
