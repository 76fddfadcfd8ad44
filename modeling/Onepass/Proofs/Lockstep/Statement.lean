import Onepass.Proofs.Lockstep.Binding

/-! # Statements in step

Blocks, conditionals and loops are executed alike on related machines. With that the comparison of two
executions closes: evaluators with fuel that fits end alike on every expression and every statement,
and so do whole programs.
-/

set_option autoImplicit false

namespace Onepass.Coupling.Laws

variable {coupling : Coupling} {left right : Script} (laws : coupling.Laws left right)
variable {evaluator partner : Evaluator} {fuel more : Nat}

include laws

/-! ## Blocks and bodies -/

theorem block {statement other : Exec Signal} (same : coupling.Pairs Eq statement other)
    (rounds : coupling.Rounds fuel more) :
    coupling.Pairs Eq (Exec.block left statement fuel) (Exec.block right other more) := by
  induction rounds with
  | spent none => exact .spent _ none rfl
  | another rounds ih =>
      apply laws.currentKind.then
      intro found
      split
      · exact laws.advance.bind fun _ _ _ => .same Signal.normal
      · exact laws.refuseToken _
      · apply same.then
        intro signal
        split
        · exact ih
        · exact .same _

theorem bodyContent (evaluators : coupling.Evaluators evaluator partner)
    (rounds : coupling.Rounds fuel more) :
    coupling.Pairs Eq (Exec.bodyContent left evaluator fuel) (Exec.bodyContent right partner more) := by
  apply (laws.accept _).then
  intro braced
  split
  · exact laws.block evaluators.statement rounds
  · exact evaluators.statement

omit laws in
/-- A setting that is made before an action and undone after it. -/
theorem ensured {α : Type} {action other : Exec α} {setup tidy : Machine → Machine}
    (same : coupling.Pairs Eq action other)
    (begun : ∀ {first second}, coupling.machines first second →
      coupling.machines (setup first) (setup second))
    (ended : ∀ {first second}, coupling.machines first second →
      coupling.machines (tidy first) (tidy second)) :
    coupling.Pairs Eq (modify setup >>= fun _ => Exec.ensuring tidy action)
      (modify setup >>= fun _ => Exec.ensuring tidy other) := by
  intro first second related
  change coupling.Outcomes Eq (Exec.ensuring tidy action (setup first))
    (Exec.ensuring tidy other (setup second))
  exact (same (begun related)).ensuring id id ended

theorem body (evaluators : coupling.Evaluators evaluator partner) (scope : Scope)
    (rounds : coupling.Rounds fuel more) :
    coupling.Pairs Eq (Exec.body left evaluator scope fuel) (Exec.body right partner scope more) :=
  ensured (laws.bodyContent evaluators rounds)
    (fun related => laws.rescope related (Scopes.inward_push scope))
    (fun related => laws.rescope related Scopes.inward_close)

theorem printedValues (evaluators : coupling.Evaluators evaluator partner)
    (rounds : coupling.Rounds fuel more) :
    coupling.Pairs Eq (Exec.printedValues left evaluator fuel)
      (Exec.printedValues right partner more) := by
  induction rounds with
  | spent none => exact .spent _ none rfl
  | another rounds ih =>
      apply laws.currentKind.then
      intro found
      split
      · exact .same ""
      · exact laws.refuseToken _
      · apply evaluators.expression.then
        intro value
        apply (laws.stores.printed value).then
        intro text
        apply (laws.accept _).then
        intro _
        exact ih.then fun _ => .same _

theorem printValues (evaluators : coupling.Evaluators evaluator partner)
    (rounds : coupling.Rounds fuel more) :
    coupling.Pairs Eq (Exec.printValues left evaluator fuel) (Exec.printValues right partner more) := by
  apply laws.advance.bind
  intro keyword twin alike
  apply (laws.expectSymbol .leftParen).then
  intro _
  apply (laws.printedValues evaluators rounds).then
  intro text
  apply (laws.expectSymbol .rightParen).then
  intro _ first second related
  rw [alike.kind]
  exact .succeeded rfl (laws.wrote related _)

theorem condition (evaluators : coupling.Evaluators evaluator partner) :
    coupling.Pairs Eq (Exec.condition left evaluator) (Exec.condition right partner) := by
  apply laws.current.bind
  intro start begin alike
  apply evaluators.expression.then
  intro value
  split
  · exact .same _
  · exact laws.stores.refuseDescribed alike.position _ .notBoolean

theorem conditionInParentheses (evaluators : coupling.Evaluators evaluator partner) :
    coupling.Pairs Eq (Exec.conditionInParentheses left evaluator)
      (Exec.conditionInParentheses right partner) := by
  apply (laws.expectSymbol .leftParen).then
  intro _
  apply (laws.condition evaluators).then
  intro value
  exact (laws.expectSymbol .rightParen).then fun _ => .same value

theorem branches (evaluators : coupling.Evaluators evaluator partner) (taken : Bool)
    (rounds : coupling.Rounds fuel more) :
    coupling.Pairs Eq (Exec.branches left evaluator fuel taken)
      (Exec.branches right partner more taken) := by
  induction rounds generalizing taken with
  | spent none => exact .spent (fun rounds => Exec.branches right partner rounds taken) none rfl
  | another rounds ih =>
      apply (laws.accept _).then
      intro another
      split
      · apply (laws.conditionInParentheses evaluators).then
        intro holds
        split
        · apply (laws.body evaluators .empty rounds).then
          intro signal
          split
          · exact ih true
          · exact .same _
        · exact laws.passBody.then fun _ => ih taken
      · apply (laws.accept _).then
        intro last
        split
        · split
          · exact laws.passBody.then fun _ => .same Signal.normal
          · exact laws.body evaluators .empty rounds
        · exact .same Signal.normal

theorem conditional (evaluators : coupling.Evaluators evaluator partner)
    (rounds : coupling.Rounds fuel more) :
    coupling.Pairs Eq (Exec.conditional left evaluator fuel) (Exec.conditional right partner more) := by
  apply (laws.expect _).bind
  intro _ _ _
  apply (laws.conditionInParentheses evaluators).then
  intro holds
  split
  · apply (laws.body evaluators .empty rounds).then
    intro signal
    split
    · exact laws.branches evaluators true rounds
    · exact .same _
  · exact laws.passBody.then fun _ => laws.branches evaluators false rounds

/-! ## Loops -/

theorem iterate (evaluators : coupling.Evaluators evaluator partner) (scope : Scope)
    (rounds : coupling.Rounds fuel more) :
    coupling.Pairs Eq (Exec.iterate left evaluator scope fuel)
      (Exec.iterate right partner scope more) := by
  apply ensured (laws.body evaluators scope rounds)
  · intro first second related
    rw [(laws.agree related).loopDepth]
    exact laws.looped related _
  · intro first second related
    rw [(laws.agree related).loopDepth]
    exact laws.looped related _

theorem noteEnd (known : Option Nat) (signal : Signal) :
    coupling.Pairs Eq (Exec.noteEnd known signal) (Exec.noteEnd known signal) := by
  unfold Exec.noteEnd
  split
  · apply Pairs.get.bind
    intro machine other related
    rw [(laws.agree related).cursor]
    exact .same _
  · exact .same known

theorem leaveLoop (bodyStart : Nat) (known : Option Nat) :
    coupling.Pairs Eq (Exec.leaveLoop left bodyStart known)
      (Exec.leaveLoop right bodyStart known) := by
  unfold Exec.leaveLoop
  split
  · exact (laws.moveTo _).then fun _ => .same Signal.normal
  · apply (laws.bodyEnd bodyStart).then
    intro finish
    exact (laws.moveTo finish).then fun _ => .same Signal.normal

omit laws in
theorem nextOf (iteration : Iteration) :
    coupling.Pairs Eq (Exec.nextOf iteration) (Exec.nextOf iteration) := by
  unfold Exec.nextOf
  split
  · exact .same _
  · exact .throw (.ofStep _)

theorem traverse (evaluators : coupling.Evaluators evaluator partner) {name twin : Token}
    (alike : Token.Alike coupling.positions name twin) (type : DeclaredType) (bodyStart : Nat)
    (iteration : Iteration) (known : Option Nat) (rounds : coupling.Rounds fuel more) :
    coupling.Pairs Eq (Exec.traverse left evaluator name type bodyStart fuel iteration known)
      (Exec.traverse right partner twin type bodyStart more iteration known) := by
  induction rounds generalizing iteration known with
  | spent none =>
      exact .spent
        (fun rounds => Exec.traverse right partner twin type bodyStart rounds iteration known) none rfl
  | another rounds ih =>
      apply (nextOf iteration).then
      intro next
      split
      · exact laws.leaveLoop bodyStart known
      · apply (laws.stores.conforms _ type).then
        intro fits
        split
        · apply (laws.stores.describe _).then
          intro found
          exact .refuse_bind _ alike.position
        · apply (laws.moveTo bodyStart).then
          intro _
          rw [alike.word]
          apply (laws.iterate evaluators _ rounds).then
          intro signal
          apply (laws.noteEnd known signal).then
          intro known
          split
          · exact laws.leaveLoop bodyStart known
          · exact .same _
          · exact ih _ known

theorem boundOf (value : Value) {token twin : Token}
    (alike : Token.Alike coupling.positions token twin) :
    coupling.Pairs Eq (Exec.boundOf value token.position) (Exec.boundOf value twin.position) := by
  unfold Exec.boundOf
  split
  · exact .same _
  · exact laws.stores.refuseDescribed alike.position value .boundNotNumber

theorem iterationOver (value : Value) {token twin : Token}
    (alike : Token.Alike coupling.positions token twin) :
    coupling.Pairs Eq (Exec.iterationOver value token.position)
      (Exec.iterationOver value twin.position) := by
  unfold Exec.iterationOver
  split
  · apply Pairs.get.bind
    intro machine other related
    rw [(laws.agree related).heap]
    exact .same _
  · exact .same _
  · exact laws.stores.refuseDescribed alike.position value .notIterable

theorem rangeStep {expression other : Exec Value} (same : coupling.Pairs Eq expression other) :
    coupling.Pairs (fun found twin => found.1 = twin.1 ∧ ∃ token other : Token,
        Token.Alike coupling.positions token other ∧ found.2 = token.position ∧
          twin.2 = other.position)
      (Exec.rangeStep left expression) (Exec.rangeStep right other) := by
  apply (laws.accept _).then
  intro stepped
  split
  · apply laws.current.bind
    intro token twin alike
    exact same.then fun value => .pure ⟨rfl, token, twin, alike, rfl, rfl⟩
  · apply laws.current.bind
    intro token twin alike
    exact .pure ⟨rfl, token, twin, alike, rfl, rfl⟩

theorem iteration {expression other : Exec Value} (same : coupling.Pairs Eq expression other) :
    coupling.Pairs Eq (Exec.iteration left expression) (Exec.iteration right other) := by
  apply laws.current.bind
  intro start begin alike
  apply same.then
  intro first
  apply (laws.accept _).then
  intro ranged
  split
  · apply laws.current.bind
    intro finish ending near
    apply same.then
    intro last
    apply (laws.rangeStep same).bind
    rintro ⟨step, position⟩ ⟨_, _⟩ ⟨rfl, token, twin, close, rfl, rfl⟩
    apply (laws.boundOf first alike).then
    intro lower
    apply (laws.boundOf last near).then
    intro upper
    apply (laws.boundOf step close).then
    intro distance
    exact .guarded _ (.refuse _ close.position) (.same _)
  · exact laws.iterationOver first alike

theorem traversal (evaluators : coupling.Evaluators evaluator partner)
    (rounds : coupling.Rounds fuel more) :
    coupling.Pairs Eq (Exec.traversal left evaluator fuel) (Exec.traversal right partner more) := by
  apply (laws.expect _).bind
  intro _ _ _
  apply (laws.expectSymbol .leftParen).then
  intro _
  apply (laws.expect .identifier).bind
  intro name twin alike
  apply (laws.expectSymbol .colon).then
  intro _
  apply laws.readType.then
  intro type
  apply (laws.expect _).bind
  intro _ _ _
  apply (laws.iteration evaluators.expression).then
  intro values
  apply (laws.expectSymbol .rightParen).then
  intro _
  apply Pairs.get.bind
  intro machine other related
  rw [(laws.agree related).cursor]
  exact laws.traverse evaluators alike type _ values none rounds

theorem leaveRepetition (header : Nat) (known : Option Nat) :
    coupling.Pairs Eq (Exec.leaveRepetition left header known)
      (Exec.leaveRepetition right header known) := by
  unfold Exec.leaveRepetition
  split
  · exact (laws.moveTo _).then fun _ => .same Signal.normal
  · apply (Pairs.ofDiagnosed (laws.scripts.parentheses header)).then
    intro bodyStart
    exact laws.leaveLoop bodyStart.val none

theorem repeatWhile (evaluators : coupling.Evaluators evaluator partner) (header : Nat)
    (known : Option Nat) (rounds : coupling.Rounds fuel more) :
    coupling.Pairs Eq (Exec.repeatWhile left evaluator header fuel known)
      (Exec.repeatWhile right partner header more known) := by
  induction rounds generalizing known with
  | spent none =>
      exact .spent (fun rounds => Exec.repeatWhile right partner header rounds known) none rfl
  | another rounds ih =>
      apply (laws.moveTo header).then
      intro _
      apply (laws.conditionInParentheses evaluators).then
      intro holds
      split
      · apply (laws.iterate evaluators .empty rounds).then
        intro signal
        apply (laws.noteEnd known signal).then
        intro known
        split
        · exact laws.leaveRepetition header known
        · exact .same _
        · exact ih known
      · exact laws.leaveRepetition header known

theorem repetition (evaluators : coupling.Evaluators evaluator partner)
    (rounds : coupling.Rounds fuel more) :
    coupling.Pairs Eq (Exec.repetition left evaluator fuel) (Exec.repetition right partner more) := by
  apply (laws.expect _).bind
  intro _ _ _
  apply Pairs.get.bind
  intro machine other related
  rw [(laws.agree related).cursor]
  exact laws.repeatWhile evaluators _ none rounds

/-! ## Jumps and results -/

theorem jump : coupling.Pairs Eq (Exec.jump left) (Exec.jump right) := by
  apply laws.advance.bind
  intro token twin alike
  apply Pairs.get.bind
  intro machine other related
  rw [(laws.agree related).loopDepth, alike.kind]
  apply Pairs.guarded _ (.refuse _ alike.position)
  exact laws.acceptSemicolon.then fun _ => .same _

theorem returnedValue (evaluators : coupling.Evaluators evaluator partner) (function : Function)
    {keyword twin : Token} (alike : Token.Alike coupling.positions keyword twin)
    {first second : Machine} (related : coupling.machines first second)
    (same : left.returnHasValue (some function.returnType) keyword.position.line first.cursor =
      right.returnHasValue (some function.returnType) twin.position.line second.cursor) :
    coupling.Outcomes Eq (Exec.returnedValue left evaluator function keyword first)
      (Exec.returnedValue right partner function twin second) := by
  have near : Token.Alike coupling.positions (left.tokenAt first.cursor)
      (right.tokenAt second.cursor) := by
    rw [(laws.agree related).cursor]
    exact laws.scripts.token second.cursor
  change coupling.Outcomes Eq
    ((if left.returnHasValue (some function.returnType) keyword.position.line first.cursor = true
      then _ else _ : Exec Value) first)
    ((if right.returnHasValue (some function.returnType) twin.position.line second.cursor = true
      then _ else _ : Exec Value) second)
  rw [same]
  refine (?_ : coupling.Pairs Eq _ _) related
  split
  · apply evaluators.expression.then
    intro value
    apply (laws.stores.conforms value _).then
    intro fits
    split
    · exact .same value
    · exact laws.stores.refuseDescribed near.position value fun found =>
        .returnMismatch function.name function.returnType found
  · split
    · exact .same Value.null
    · exact .refuse _ alike.position

theorem giveBack (value : Value) :
    coupling.Pairs Eq (Exec.giveBack value) (Exec.giveBack value) :=
  fun _ _ related => .succeeded rfl (laws.gave related value)

theorem returnFrom (evaluators : coupling.Evaluators evaluator partner) {first second : Machine}
    (related : coupling.machines first second)
    (returns : left.kindAt first.cursor = .keyword .returnWord) :
    coupling.Outcomes Eq (Exec.returnFrom left evaluator first)
      (Exec.returnFrom right partner second) := by
  have agree := laws.agree related
  have place := agree.cursor
  have caller := agree.caller
  have twins : right.kindAt first.cursor = .keyword .returnWord := by
    rw [← laws.scripts.kind]
    exact returns
  have alike := laws.scripts.token first.cursor
  have moved := laws.moved related (first.cursor + 1)
  rw [Exec.returnFrom_eq returns, Exec.returnFrom_eq (by rw [← place]; exact twins), ← place]
  cases here : first.frames with
  | nil =>
      cases there : second.frames with
      | nil =>
          rw [here, there] at moved
          exact Pairs.refuse _ alike.position moved
      | cons function others => rw [here, there] at caller; cases caller
  | cons function others =>
      cases there : second.frames with
      | nil => rw [here, there] at caller; cases caller
      | cons twin remaining =>
          rw [here, there] at caller moved
          obtain rfl : function = twin := Option.some.inj caller
          apply bind_outcomes (laws.returnedValue evaluators function alike moved
            (laws.scripts.returns _ first.cursor returns))
          rintro value _ middle between _ rfl inside
          refine (laws.stores.retag value function.returnType).then (fun _ => ?_) inside
          apply (laws.giveBack value).then
          intro _
          exact laws.acceptSemicolon.then fun _ => .same _

theorem simple {action other : Exec Unit} (same : coupling.Pairs Eq action other) :
    coupling.Pairs Eq (Exec.simple left action) (Exec.simple right other) :=
  same.then fun _ => laws.acceptSemicolon.then fun _ => .same Signal.normal

theorem namedStatement (evaluators : coupling.Evaluators evaluator partner)
    (rounds : coupling.Rounds fuel more) :
    coupling.Pairs Eq (Exec.namedStatement left evaluator fuel)
      (Exec.namedStatement right partner more) := by
  apply laws.followingKind.then
  intro following
  split
  · exact laws.variableDeclaration evaluators rounds
  · split
    · exact (laws.call evaluators rounds).then fun _ => .same ()
    · split
      · exact laws.assignment evaluators rounds
      · exact laws.current.bind fun _ _ alike => .refuse _ alike.position

theorem perform (evaluators : coupling.Evaluators evaluator partner)
    (rounds : coupling.Rounds fuel more) {position twin : Position}
    (near : coupling.positions position twin) {first second : Machine}
    (related : coupling.machines first second) :
    coupling.Outcomes Eq
      (Exec.perform left evaluator fuel (left.kindAt first.cursor) position first)
      (Exec.perform right partner more (left.kindAt first.cursor) twin second) := by
  generalize known : left.kindAt first.cursor = kind
  unfold Exec.perform
  split
  · exact laws.simple (laws.printValues evaluators rounds) related
  · exact laws.simple (laws.printValues evaluators rounds) related
  · exact laws.conditional evaluators rounds related
  · exact laws.traversal evaluators rounds related
  · exact laws.repetition evaluators rounds related
  · exact laws.simple (laws.functionDeclaration rounds) related
  · exact laws.returnFrom evaluators related known
  · exact laws.jump related
  · exact laws.jump related
  · exact laws.body evaluators .empty rounds related
  · exact laws.simple (laws.variableDeclaration evaluators rounds) related
  · exact laws.simple (laws.namedStatement evaluators rounds) related
  · exact laws.simple (.same ()) related
  · exact Pairs.refuse _ near related

/-! ## The evaluator -/

variable {verbosity other : Nat}

theorem dispatch (evaluators : coupling.Evaluators evaluator partner)
    (rounds : coupling.Rounds fuel more)
    (counted : ∀ {first second}, coupling.machines first second →
      coupling.machines (Exec.observed left verbosity first) (Exec.observed right other second)) :
    coupling.Pairs Eq (Exec.dispatch left verbosity evaluator fuel)
      (Exec.dispatch right other partner more) := by
  intro first second related
  have place := (laws.agree related).cursor
  rw [Exec.dispatch_eq, Exec.dispatch_eq, ← laws.scripts.kind, ← place]
  have near := (laws.scripts.token first.cursor).position
  exact laws.perform evaluators rounds near (counted related)

/-- Two executions with fuel that fits end alike on every expression and every statement. -/
theorem evaluators (counted : ∀ {first second}, coupling.machines first second →
      coupling.machines (Exec.observed left verbosity first) (Exec.observed right other second))
    (rounds : coupling.Rounds fuel more) :
    coupling.Evaluators (Exec.evaluator left verbosity fuel) (Exec.evaluator right other more) := by
  have control (more : Nat) : (Exec.evaluator right other more).KeepsControl :=
    controlDiscipline.evaluates right other more
  induction rounds with
  | spent none =>
      exact ⟨.spent (fun more => (Exec.evaluator right other more).expression) none rfl,
        .spent (fun more => (Exec.evaluator right other more).statement) none rfl, control _⟩
  | another rounds ih =>
      exact ⟨laws.disjunction ih (laws.call ih rounds) rounds, laws.dispatch ih rounds counted,
        control _⟩

theorem program (evaluators : coupling.Evaluators evaluator partner)
    (rounds : coupling.Rounds fuel more) :
    coupling.Pairs Eq (Exec.program left evaluator fuel) (Exec.program right partner more) := by
  induction rounds with
  | spent none => exact .spent _ none rfl
  | another rounds ih =>
      apply laws.currentKind.then
      intro found
      split
      · exact .same ()
      · exact evaluators.statement.then fun _ => ih

end Onepass.Coupling.Laws
