import Onepass.Proofs.Transport.Binding
import Onepass.Proofs.Transport.Stepping

/-! # Statements in another script

Blocks, conditionals and loops are executed alike in a script that lies inside another one. With that
the comparison closes: evaluators with the same fuel end alike on every expression and every statement.
-/

set_option autoImplicit false

namespace Onepass

namespace Exec

variable {script : Script} {evaluator : Evaluator} {machine final : Machine}

theorem evaluates_of_condition {holds : Bool}
    (ran : conditionInParentheses script evaluator machine = .ok holds final) :
    evaluator.Evaluates := by
  obtain ⟨_, _, -, rest⟩ := bind_ok ran
  obtain ⟨_, _, evaluated, -⟩ := bind_ok rest
  obtain ⟨_, _, evaluated, -⟩ := bind_ok (current_bind_ok evaluated)
  exact ⟨_, _, _, evaluated⟩

theorem evaluates_of_iteration {values : Iteration}
    (ran : iteration script evaluator.expression machine = .ok values final) :
    evaluator.Evaluates := by
  obtain ⟨_, _, evaluated, -⟩ := bind_ok (current_bind_ok ran)
  exact ⟨_, _, _, evaluated⟩

end Exec

namespace Transport.Laws

variable {transport : Transport} {left right : Script} (laws : transport.Laws left right)
variable {evaluator partner : Evaluator} {fuel : Nat}

include laws

/-! ## Blocks and bodies -/

theorem block {statement other : Exec Signal} (same : transport.Pairs Eq statement other) :
    transport.Pairs Eq (Exec.block left statement fuel) (Exec.block right other fuel) := by
  induction fuel with
  | zero => exact laws.spent
  | succ fuel ih =>
      apply laws.lookProper
      · exact refuseToken_refused _
      · intro found
        split
        · exact (laws.advance (by simp)).bind fun _ _ _ => .same Signal.normal
        · exact (laws.refuseToken _).at
        · apply Pairs.at
          apply same.then
          intro signal
          split
          · exact ih
          · exact .same _

/-- At a token of its own the first execution finds the same body. -/
theorem bodyContent_alike (evaluators : transport.Evaluators left evaluator partner)
    {first second : Machine} (related : transport.machines first second)
    (same : right.kindAt second.cursor = left.kindAt first.cursor) :
    transport.Outcomes Eq (Exec.bodyContent left evaluator fuel first)
      (Exec.bodyContent right partner fuel second) := by
  apply bind_outcomes
  · change transport.Outcomes Eq
      ((if left.kindAt first.cursor = .symbol .leftBrace then _ else _ : Exec Bool) first)
      ((if right.kindAt second.cursor = .symbol .leftBrace then _ else _ : Exec Bool) second)
    rw [same]
    split
    case _ brace =>
      exact (laws.advance (by simp)).bind (fun _ _ _ => .same true) related brace
    case _ => exact Pairs.same false related
  · rintro braced _ middle between _ rfl ready
    cases braced with
    | true => exact laws.block evaluators.statement ready
    | false => exact evaluators.statement ready

/-- At the end of the first script there is neither a block nor a statement, whatever follows it in the
second one. -/
theorem bodyContent (evaluators : transport.Evaluators left evaluator partner)
    (evaluates : evaluator.Evaluates) :
    transport.Pairs Eq (Exec.bodyContent left evaluator fuel)
      (Exec.bodyContent right partner fuel) := by
  intro first second related
  cases laws.sees related with
  | alike alike => exact laws.bodyContent_alike evaluators related alike.kind.symm
  | beyond ends ended _ =>
      have atEnd : left.kindAt first.cursor = .endOfInput := ended
      have rejected : Exec.accept left (.symbol .leftBrace) first = .ok false first := by
        change (if left.kindAt first.cursor = .symbol .leftBrace then _ else _ : Exec Bool) first = _
        rw [atEnd]
        rfl
      rw [Exec.bodyContent, Exec.bind_of_ok rejected]
      exact (evaluators.stops evaluates).excused atEnd ends

/-- A body ends alike if what is executed in its scope does. -/
theorem bodyAround (evaluators : transport.Evaluators left evaluator partner) (scope : Scope)
    {first second : Machine} (related : transport.machines first second)
    (content : transport.Outcomes Eq
      (Exec.bodyContent left evaluator fuel { first with scopes := first.scopes.push scope })
      (Exec.bodyContent right partner fuel { second with scopes := second.scopes.push scope })) :
    transport.Outcomes Eq (Exec.body left evaluator scope fuel first)
      (Exec.body right partner scope fuel second) := by
  change transport.Outcomes Eq
    (Exec.ensuring Exec.closeScope (Exec.bodyContent left evaluator fuel)
      { first with scopes := first.scopes.push scope })
    (Exec.ensuring Exec.closeScope (Exec.bodyContent right partner fuel)
      { second with scopes := second.scopes.push scope })
  apply content.ensuring
  intro within ended
  obtain ⟨added, kept⟩ := controlDiscipline.bodyContent left evaluators.control fuel
    { first with scopes := first.scopes.push scope }
  exact laws.closed related scope added kept ended

theorem body (evaluators : transport.Evaluators left evaluator partner)
    (evaluates : evaluator.Evaluates) (scope : Scope) :
    transport.Pairs Eq (Exec.body left evaluator scope fuel)
      (Exec.body right partner scope fuel) :=
  fun _ _ related => laws.bodyAround evaluators scope related
    (laws.bodyContent evaluators evaluates (laws.opened related scope))

/-- A block is executed as a statement where it begins. -/
theorem bracedBody (evaluators : transport.Evaluators left evaluator partner) (scope : Scope) :
    transport.PairsAt left (.symbol .leftBrace) Eq (Exec.body left evaluator scope fuel)
      (Exec.body right partner scope fuel) := by
  intro first second related brace
  have same : right.kindAt second.cursor = left.kindAt first.cursor :=
    laws.embeds.kind (laws.agree related).cursor (by simp [brace])
  exact laws.bodyAround evaluators scope related
    (laws.bodyContent_alike evaluators (laws.opened related scope) same)

theorem printedValues (evaluators : transport.Evaluators left evaluator partner) :
    transport.Pairs Eq (Exec.printedValues left evaluator fuel)
      (Exec.printedValues right partner fuel) := by
  induction fuel with
  | zero => exact laws.spent
  | succ fuel ih =>
      apply laws.lookProper
      · exact refuseToken_refused _
      · intro found
        split
        · exact (Pairs.same "").at
        · exact (laws.refuseToken _).at
        · apply Pairs.at
          apply evaluators.expression.then
          intro value
          apply (laws.printed value).then
          intro text
          apply (laws.accept (by simp) (by decide)).then
          intro _
          exact ih.then fun _ => .same _

theorem printValues (evaluators : transport.Evaluators left evaluator partner) {kind : Kind}
    (proper : kind ≠ .endOfInput) :
    transport.PairsAt left kind Eq (Exec.printValues left evaluator fuel)
      (Exec.printValues right partner fuel) := by
  apply (laws.advance proper).bind
  intro keyword twin read
  apply (laws.expectSymbol .leftParen).then
  intro _
  apply (laws.printedValues evaluators).then
  intro text
  apply (laws.expectSymbol .rightParen).then
  intro _ first second related
  rw [← read.alike.kind]
  exact .succeeded rfl (laws.wrote related _)

theorem condition (evaluators : transport.Evaluators left evaluator partner) :
    transport.Pairs Eq (Exec.condition left evaluator) (Exec.condition right partner) := by
  apply laws.mark
  intro start begin near
  apply evaluators.expression.then
  intro value
  split
  · exact .same _
  · exact laws.refuseDescribed near _ .notBoolean

theorem conditionInParentheses (evaluators : transport.Evaluators left evaluator partner) :
    transport.Pairs Eq (Exec.conditionInParentheses left evaluator)
      (Exec.conditionInParentheses right partner) := by
  apply (laws.expectSymbol .leftParen).then
  intro _
  apply (laws.condition evaluators).then
  intro value
  exact (laws.expectSymbol .rightParen).then fun _ => .same value

theorem branches (evaluators : transport.Evaluators left evaluator partner)
    (evaluates : evaluator.Evaluates) (taken : Bool) :
    transport.Pairs Eq (Exec.branches left evaluator fuel taken)
      (Exec.branches right partner fuel taken) := by
  induction fuel generalizing taken with
  | zero => exact laws.spent
  | succ fuel ih =>
      apply (laws.accept (by simp) (by decide)).then
      intro another
      split
      · apply (laws.conditionInParentheses evaluators).then
        intro holds
        split
        · apply (laws.body evaluators evaluates .empty).then
          intro signal
          split
          · exact ih true
          · exact .same _
        · exact laws.passBody.then fun _ => ih taken
      · apply (laws.accept (by simp) (by decide)).then
        intro last
        split
        · split
          · exact laws.passBody.then fun _ => .same Signal.normal
          · exact laws.body evaluators evaluates .empty
        · exact .same Signal.normal

theorem conditional (evaluators : transport.Evaluators left evaluator partner) :
    transport.Pairs Eq (Exec.conditional left evaluator fuel)
      (Exec.conditional right partner fuel) := by
  apply (laws.expect (by simp)).bind
  intro _ _ _ first second related
  apply bind_outcomes (laws.conditionInParentheses evaluators related)
  rintro holds _ middle between ran rfl ready
  have evaluates := Exec.evaluates_of_condition ran
  refine (?_ : transport.Pairs _ _ _) ready
  split
  · apply (laws.body evaluators evaluates .empty).then
    intro signal
    split
    · exact laws.branches evaluators evaluates true
    · exact .same _
  · exact laws.passBody.then fun _ => laws.branches evaluators evaluates false

/-! ## Loops -/

theorem iterate (evaluators : transport.Evaluators left evaluator partner)
    (evaluates : evaluator.Evaluates) (scope : Scope) :
    transport.Pairs Eq (Exec.iterate left evaluator scope fuel)
      (Exec.iterate right partner scope fuel) := by
  intro first second related
  change transport.Outcomes Eq
    (Exec.ensuring (fun machine => { machine with loopDepth := machine.loopDepth - 1 })
      (Exec.body left evaluator scope fuel) { first with loopDepth := first.loopDepth + 1 })
    (Exec.ensuring (fun machine => { machine with loopDepth := machine.loopDepth - 1 })
      (Exec.body right partner scope fuel) { second with loopDepth := second.loopDepth + 1 })
  rw [(laws.agree related).loopDepth]
  apply (laws.body evaluators evaluates scope
    (laws.looped related (first.loopDepth + 1))).ensuring
  intro within ended
  rw [(laws.agree ended).loopDepth]
  exact laws.looped ended _

theorem noteEnd {known twin : Option Nat} (same : Option.Rel transport.places known twin)
    (signal : Signal) :
    transport.Pairs (Option.Rel transport.places) (Exec.noteEnd known signal)
      (Exec.noteEnd twin signal) := by
  cases same with
  | some paired => cases signal <;> exact .pure (.some paired)
  | none =>
      cases signal with
      | normal => exact fun _ _ related => .succeeded (.some (laws.agree related).cursor) related
      | breaking => exact .pure .none
      | continuing => exact .pure .none
      | returning => exact .pure .none

theorem leaveLoop {bodyStart start : Nat} (paired : transport.places bodyStart start)
    {known twin : Option Nat} (same : Option.Rel transport.places known twin) :
    transport.Pairs Eq (Exec.leaveLoop left bodyStart known) (Exec.leaveLoop right start twin) := by
  unfold Exec.leaveLoop
  cases same with
  | some ends => exact (laws.moveTo ends).then fun _ => .same Signal.normal
  | none =>
      apply (laws.bodyEnd paired).bind
      intro finish stop ends
      exact (laws.moveTo ends).then fun _ => .same Signal.normal

theorem traverse (evaluators : transport.Evaluators left evaluator partner)
    (evaluates : evaluator.Evaluates) {step : Stepping} {name twin : Token}
    (read : transport.Read left .identifier name twin)
    (steps : ∀ iteration, transport.Pairs Eq (Exec.nextOf iteration) (step twin iteration))
    (type : DeclaredType) {bodyStart start : Nat} (paired : transport.places bodyStart start)
    (iteration : Iteration) {known other : Option Nat}
    (same : Option.Rel transport.places known other) :
    transport.Pairs Eq (Exec.traverse left evaluator name type bodyStart fuel iteration known)
      (Exec.traverseBy right step partner twin type start fuel iteration other) := by
  induction fuel generalizing iteration known other with
  | zero => exact laws.spent
  | succ fuel ih =>
      apply (steps iteration).then
      intro next
      split
      · exact laws.leaveLoop paired same
      · apply (laws.conforms _ type).then
        intro fits
        split
        · apply (laws.describe _).then
          intro found
          exact laws.refuse_bind _ (.inr read.alike.position)
        · apply (laws.moveTo paired).then
          intro _
          rw [← read.alike.word]
          apply (laws.iterate evaluators evaluates _).then
          intro signal
          apply (laws.noteEnd same signal).bind
          intro known other same
          cases signal with
          | breaking => exact laws.leaveLoop paired same
          | returning => exact .same _
          | normal => exact ih _ same
          | continuing => exact ih _ same

theorem boundOf (value : Value) {position twin : Position} (near : transport.Near position twin) :
    transport.Pairs Eq (Exec.boundOf value position) (Exec.boundOf value twin) := by
  unfold Exec.boundOf
  split
  · exact .same _
  · exact (laws.describe value).then fun _ => laws.refuse _ near

theorem iterationOver (value : Value) {position twin : Position}
    (near : transport.Near position twin) :
    transport.Pairs Eq (Exec.iterationOver value position) (Exec.iterationOver value twin) := by
  unfold Exec.iterationOver
  split
  · apply Pairs.get.bind
    intro machine other related
    rw [(laws.agree related).heap]
    exact .same _
  · exact .same _
  · exact (laws.describe value).then fun _ => laws.refuse _ near

theorem rangeStep {expression other : Exec Value} (same : transport.Pairs Eq expression other) :
    transport.Pairs (fun found twin => found.1 = twin.1 ∧ transport.Near found.2 twin.2)
      (Exec.rangeStep left expression) (Exec.rangeStep right other) := by
  apply (laws.accept (by simp) (by decide)).then
  intro stepped
  split
  · apply laws.mark
    intro token twin near
    exact same.then fun value => .pure ⟨rfl, near⟩
  · exact laws.mark fun token twin near => .pure ⟨rfl, near⟩

theorem iteration {expression other : Exec Value} (same : transport.Pairs Eq expression other) :
    transport.Pairs Eq (Exec.iteration left expression) (Exec.iteration right other) := by
  apply laws.mark
  intro start begin near
  apply same.then
  intro first
  apply (laws.accept (by simp) (by decide)).then
  intro ranged
  split
  · apply laws.mark
    intro finish ending close
    apply same.then
    intro last
    apply (laws.rangeStep same).bind
    rintro ⟨step, position⟩ ⟨_, twin⟩ ⟨rfl, adjacent⟩
    apply (laws.boundOf first near).then
    intro lower
    apply (laws.boundOf last close).then
    intro upper
    apply (laws.boundOf step adjacent).then
    intro distance
    exact .guarded _ (laws.refuse _ adjacent) (.same _)
  · exact laws.iterationOver first near

theorem traversal (evaluators : transport.Evaluators left evaluator partner) {step : Stepping}
    (steps : ∀ {name twin}, transport.Read left .identifier name twin → ∀ iteration,
      transport.Pairs Eq (Exec.nextOf iteration) (step twin iteration)) :
    transport.Pairs Eq (Exec.traversal left evaluator fuel)
      (Exec.traversalBy right step partner fuel) := by
  apply (laws.expect (by simp)).bind
  intro _ _ _
  apply (laws.expectSymbol .leftParen).then
  intro _
  apply (laws.expect (by simp)).bind
  intro name twin read
  apply (laws.expectSymbol .colon).then
  intro _
  apply laws.readType.then
  intro type
  apply (laws.expect (by simp)).bind
  intro _ _ _ first second related
  apply bind_outcomes (laws.iteration evaluators.expression related)
  rintro values _ middle between ran rfl ready
  refine (laws.expectSymbol .rightParen).then (fun _ => ?_) ready
  apply Pairs.get.bind
  intro machine other related
  exact laws.traverse evaluators (Exec.evaluates_of_iteration ran) read (steps read) type
    (laws.agree related).cursor values .none

theorem leaveRepetition {header start : Nat} (paired : transport.places header start)
    {known twin : Option Nat} (same : Option.Rel transport.places known twin) :
    transport.Pairs Eq (Exec.leaveRepetition left header known)
      (Exec.leaveRepetition right start twin) := by
  unfold Exec.leaveRepetition
  cases same with
  | some ends => exact (laws.moveTo ends).then fun _ => .same Signal.normal
  | none =>
      apply (laws.ofDiagnosed (laws.embeds.parenthesesEnd paired)).bind
      intro bodyStart other paired
      exact laws.leaveLoop paired .none

theorem repeatWhile (evaluators : transport.Evaluators left evaluator partner) {header start : Nat}
    (paired : transport.places header start) {known twin : Option Nat}
    (same : Option.Rel transport.places known twin) :
    transport.Pairs Eq (Exec.repeatWhile left evaluator header fuel known)
      (Exec.repeatWhile right partner start fuel twin) := by
  induction fuel generalizing known twin with
  | zero => exact laws.spent
  | succ fuel ih =>
      apply (laws.moveTo paired).then
      intro _ first second related
      apply bind_outcomes (laws.conditionInParentheses evaluators related)
      rintro holds _ middle between ran rfl ready
      have evaluates := Exec.evaluates_of_condition ran
      refine (?_ : transport.Pairs _ _ _) ready
      split
      · apply (laws.iterate evaluators evaluates .empty).then
        intro signal
        apply (laws.noteEnd same signal).bind
        intro known other same
        split
        · exact laws.leaveRepetition paired same
        · exact .same _
        · exact ih same
      · exact laws.leaveRepetition paired same

theorem repetition (evaluators : transport.Evaluators left evaluator partner) :
    transport.Pairs Eq (Exec.repetition left evaluator fuel)
      (Exec.repetition right partner fuel) := by
  apply (laws.expect (by simp)).bind
  intro _ _ _
  apply Pairs.get.bind
  intro machine other related
  exact laws.repeatWhile evaluators (laws.agree related).cursor .none

/-! ## Jumps and results -/

theorem jump {kind : Kind} (proper : kind ≠ .endOfInput) :
    transport.PairsAt left kind Eq (Exec.jump left) (Exec.jump right) := by
  apply (laws.advance proper).bind
  intro token twin read
  apply Pairs.get.bind
  intro machine other related
  rw [(laws.agree related).loopDepth, ← read.alike.kind]
  apply Pairs.guarded _ (laws.refuse _ (.inr read.alike.position))
  exact laws.acceptSemicolon.then fun _ => .same _

theorem returnedValue (evaluators : transport.Evaluators left evaluator partner)
    {function other : Function} (signature : function.SameSignature other) {keyword twin : Token}
    (near : transport.Near keyword.position twin.position) {first second : Machine}
    (related : transport.machines first second)
    (same : right.returnHasValue (some function.returnType) twin.position.line second.cursor =
      left.returnHasValue (some function.returnType) keyword.position.line first.cursor) :
    transport.Outcomes Eq (Exec.returnedValue left evaluator function keyword first)
      (Exec.returnedValue right partner other twin second) := by
  have rest {start begin : Token} (close : transport.Near start.position begin.position) :
      transport.Pairs Eq
        (if left.returnHasValue (some function.returnType) keyword.position.line first.cursor = true
        then do
          let value ← evaluator.expression
          if ← Exec.conforms value function.returnType then return value
          else Exec.refuse (.returnMismatch function.name function.returnType
            (← Exec.describe value)) start.position
        else if function.returnType = .void then return .null
        else Exec.refuse (.missingReturn function.name function.returnType) keyword.position)
        (if left.returnHasValue (some function.returnType) keyword.position.line first.cursor = true
        then do
          let value ← partner.expression
          if ← Exec.conforms value function.returnType then return value
          else Exec.refuse (.returnMismatch function.name function.returnType
            (← Exec.describe value)) begin.position
        else if function.returnType = .void then return .null
        else Exec.refuse (.missingReturn function.name function.returnType) twin.position) := by
    split
    · apply evaluators.expression.then
      intro value
      apply (laws.conforms value _).then
      intro fits
      split
      · exact .same value
      · exact laws.refuseDescribed close value fun found =>
          .returnMismatch function.name function.returnType found
    · split
      · exact .same Value.null
      · exact laws.refuse _ near
  have close : transport.Near (left.tokenAt first.cursor).position
      (right.tokenAt second.cursor).position := by
    cases laws.sees related with
    | alike alike => exact .inr alike.position
    | beyond ends _ _ => exact .inl ends
  unfold Exec.returnedValue
  rw [signature.returnType, signature.name]
  change transport.Outcomes Eq
    ((if left.returnHasValue (some function.returnType) keyword.position.line first.cursor = true
      then _ else _ : Exec Value) first)
    ((if right.returnHasValue (some function.returnType) twin.position.line second.cursor = true
      then _ else _ : Exec Value) second)
  rw [same]
  exact rest close related

theorem giveBack (value : Value) :
    transport.Pairs Eq (Exec.giveBack value) (Exec.giveBack value) :=
  fun _ _ related => .succeeded rfl (laws.gave related value)

theorem returnFrom (evaluators : transport.Evaluators left evaluator partner) :
    transport.PairsAt left (.keyword .returnWord) Eq (Exec.returnFrom left evaluator)
      (Exec.returnFrom right partner) := by
  intro first second related known
  have agree := laws.agree related
  have proper : left.kindAt first.cursor ≠ .endOfInput := by simp [known]
  have alike := laws.embeds.alike agree.cursor proper
  have there : right.kindAt second.cursor = .keyword .returnWord := by
    rw [laws.embeds.kind agree.cursor proper]
    exact known
  have moved := laws.moved related (laws.embeds.next agree.cursor proper)
  rw [Exec.returnFrom_eq known, Exec.returnFrom_eq there]
  have values (running : Option DeclaredType) (allowed : transport.running running) :=
    laws.embeds.returns agree.cursor allowed known
  generalize begun : ({ first with cursor := first.cursor + 1 } : Machine) = ready at moved
  generalize follows : ({ second with cursor := second.cursor + 1 } : Machine) = prepared at moved
  have callers := agree.caller
  have running := agree.running
  unfold Machine.running at running
  cases here : first.frames with
  | nil =>
      cases frames : second.frames with
      | nil => exact laws.refuse _ (.inr alike.position) moved
      | cons function others => rw [here, frames] at callers; cases callers
  | cons function others =>
      cases frames : second.frames with
      | nil => rw [here, frames] at callers; cases callers
      | cons twin remaining =>
          rw [here, frames] at callers
          rw [here] at running
          have same := values (some function.returnType) running
          rw [show first.cursor + 1 = ready.cursor by rw [← begun],
            show second.cursor + 1 = prepared.cursor by rw [← follows]] at same
          cases callers with
          | some signature =>
              apply bind_outcomes
                (laws.returnedValue evaluators signature (.inr alike.position) moved same)
              rintro value _ middle between _ rfl ready
              rw [signature.returnType]
              refine (laws.retag value function.returnType).then (fun _ => ?_) ready
              apply (laws.giveBack value).then
              intro _
              exact laws.acceptSemicolon.then fun _ => .same _

theorem simple {kind : Kind} {action other : Exec Unit}
    (same : transport.PairsAt left kind Eq action other) :
    transport.PairsAt left kind Eq (Exec.simple left action) (Exec.simple right other) :=
  same.bind fun _ _ _ => laws.acceptSemicolon.then fun _ => .same Signal.normal

theorem namedStatement (evaluators : transport.Evaluators left evaluator partner) :
    transport.PairsAt left .identifier Eq (Exec.namedStatement left evaluator fuel)
      (Exec.namedStatement right partner fuel) := by
  intro first second related known
  have after := laws.embeds.next (laws.agree related).cursor (by simp [known])
  change transport.Outcomes Eq
    ((if left.kindAt (first.cursor + 1) = .symbol .colon then _ else _ : Exec Unit) first)
    ((if right.kindAt (second.cursor + 1) = .symbol .colon then _ else _ : Exec Unit) second)
  have following (test : Kind → Bool)
      (blind : ∀ kind ∈ Kind.statementStarts, test kind = test .endOfInput) :
      test (right.kindAt (second.cursor + 1)) =
        test (left.kindAt (first.cursor + 1)) := laws.embeds.blind test blind after
  have colon := following (· = .symbol .colon) (by decide)
  have paren := following (· = .symbol .leftParen) (by decide)
  have assigns := following
    (fun kind => kind.isAssignment || kind.isStep || kind = .symbol .leftBracket) (by decide)
  simp only [decide_eq_decide] at colon paren
  simp only [colon, paren, assigns]
  split
  · exact laws.variableDeclaration evaluators (by simp) related known
  · split
    · exact ((laws.call evaluators).then fun _ => .same ()) related
    · split
      · exact laws.assignment evaluators related known
      · exact laws.mark (fun _ _ near => laws.refuse _ near) related

/-! ## The evaluator -/

variable {verbosity : Nat} {step : Stepping}

/-- A statement is executed alike, also if its loops step in another way that corresponds. Where the
first execution finds no statement it fails. -/
theorem dispatch (evaluators : transport.Evaluators left evaluator partner)
    (steps : ∀ {name twin}, transport.Read left .identifier name twin → ∀ iteration,
      transport.Pairs Eq (Exec.nextOf iteration) (step twin iteration))
    {other : Nat}
    (counted : ∀ {first second}, transport.machines first second →
      Token.Alike transport.positions (left.tokenAt first.cursor) (right.tokenAt second.cursor) →
        transport.machines (Exec.observed left verbosity first) (Exec.observed right other second)) :
    transport.Pairs Eq (Exec.dispatch left verbosity evaluator fuel)
      (Exec.dispatchBy right step other partner fuel) := by
  intro first second related
  cases laws.sees related with
  | beyond ends ended _ =>
      have atEnd : left.kindAt first.cursor = .endOfInput := ended
      rw [Exec.dispatch_eq, atEnd]
      exact .excused ends
  | alike alike =>
      have kinds : right.kindAt second.cursor = left.kindAt first.cursor := alike.kind.symm
      have begun := counted related alike
      have same : left.kindAt (Exec.observed left verbosity first).cursor =
          left.kindAt first.cursor := rfl
      unfold Exec.dispatchBy
      rw [Exec.dispatch_eq, Exec.dispatch_eq, kinds]
      generalize left.kindAt first.cursor = kind at same
      unfold Exec.perform
      split
      · exact laws.simple (laws.printValues evaluators (by simp)) begun same
      · exact laws.simple (laws.printValues evaluators (by simp)) begun same
      · exact laws.conditional evaluators begun
      · exact laws.traversal evaluators steps begun
      · exact laws.repetition evaluators begun
      · exact laws.simple laws.functionDeclaration.at begun same
      · exact laws.returnFrom evaluators begun same
      · exact laws.jump (by simp) begun same
      · exact laws.jump (by simp) begun same
      · exact laws.bracedBody evaluators .empty begun same
      · exact laws.simple (laws.variableDeclaration evaluators (by simp)) begun same
      · exact laws.simple (laws.namedStatement evaluators) begun same
      · exact laws.simple (Pairs.same ()).at begun same
      · rw [if_neg (by assumption)]
        exact laws.refuse _ (.inr alike.position) begun

omit laws in
/-- At the end of the script no statement is executed. -/
theorem statement_refused (script : Script) (verbosity : Nat) {fuel : Nat}
    (evaluates : (Exec.evaluator script verbosity fuel).Evaluates) :
    RefusedAtEnd script (Exec.evaluator script verbosity fuel).statement := by
  intro machine ended
  cases fuel with
  | zero =>
      obtain ⟨_, _, _, ran⟩ := evaluates
      cases ran
  | succ fuel =>
      change ∃ cause final, Exec.dispatch script verbosity (Exec.evaluator script verbosity fuel)
        fuel machine = .error (.diagnostic ⟨cause, _⟩) final
      rw [Exec.dispatch_eq, ended]
      exact ⟨_, _, rfl⟩

/-- Programs end alike, if the second one ends where the first one does. -/
theorem program (evaluators : transport.Evaluators left evaluator partner)
    (closed : ∀ {place twin}, transport.places place twin → right.kindAt twin = left.kindAt place)
    (rounds : Nat) :
    transport.Pairs Eq (Exec.program left evaluator rounds)
      (Exec.program right partner rounds) := by
  induction rounds with
  | zero => exact laws.spent
  | succ rounds ih =>
      intro first second related
      change transport.Outcomes Eq
        ((if left.kindAt first.cursor = .endOfInput then pure ()
          else evaluator.statement >>= fun _ => Exec.program left evaluator rounds : Exec Unit) first)
        ((if right.kindAt second.cursor = .endOfInput then pure ()
          else partner.statement >>= fun _ => Exec.program right partner rounds : Exec Unit) second)
      rw [closed (laws.agree related).cursor]
      split
      · exact .succeeded rfl related
      · exact evaluators.statement.then (fun _ => ih) related

omit laws in
theorem nextOf (steps : ∀ refusal, transport.failures (.ofStep refusal) (.ofStep refusal))
    (iteration : Iteration) :
    transport.Pairs Eq (Exec.nextOf iteration) (Exec.nextOf iteration) := by
  unfold Exec.nextOf
  split
  · exact .same _
  · exact .throw (steps _)

end Laws

/-! ## All parts of a script -/

namespace Calls

variable {Part : Type} {parts : Part → Transport} {left right : Script} (calls : Calls parts)
variable (laws : ∀ part, (parts part).Laws left right) {verbosity other : Nat} {step : Stepping}
include calls laws

/-- Two executions with the same fuel end alike on every expression and every statement, in all parts
of the script. -/
theorem evaluators
    (steps : ∀ {part name twin}, (parts part).Read left .identifier name twin → ∀ iteration,
      (parts part).Pairs Eq (Exec.nextOf iteration) (step twin iteration))
    (counted : ∀ {part first second}, (parts part).machines first second →
      Token.Alike (parts part).positions (left.tokenAt first.cursor) (right.tokenAt second.cursor) →
        (parts part).machines (Exec.observed left verbosity first)
          (Exec.observed right other second))
    (fuel : Nat) (part : Part) :
    (parts part).Evaluators left (Exec.evaluator left verbosity fuel)
      (Exec.steppedBy right step other fuel) := by
  have control (fuel : Nat) : (Exec.evaluator left verbosity fuel).KeepsControl :=
    controlDiscipline.evaluates left verbosity fuel
  induction fuel generalizing part with
  | zero =>
      exact ⟨(laws part).spent, (laws part).spent,
        fun corresponds _ _ near _ _ => calls.invoke laws (control 0) (fun part => (laws part).spent)
          part corresponds near, control 0, Laws.statement_refused left verbosity⟩
  | succ fuel ih =>
      have statements (part : Part) :
          (parts part).Pairs Eq (Exec.evaluator left verbosity (fuel + 1)).statement
            (Exec.steppedBy right step other (fuel + 1)).statement :=
        (laws part).dispatch (ih part) steps counted
      exact ⟨(laws part).disjunction (ih part) ((laws part).call (ih part)), statements part,
        fun corresponds _ _ near _ _ => calls.invoke laws (control _) statements part corresponds near,
        control _, Laws.statement_refused left verbosity⟩

/-- Both executions step as the program does. -/
theorem sameEvaluators
    (steps : ∀ part refusal, (parts part).failures (.ofStep refusal) (.ofStep refusal))
    (counted : ∀ {part first second}, (parts part).machines first second →
      Token.Alike (parts part).positions (left.tokenAt first.cursor) (right.tokenAt second.cursor) →
        (parts part).machines (Exec.observed left verbosity first)
          (Exec.observed right other second))
    (fuel : Nat) (part : Part) :
    (parts part).Evaluators left (Exec.evaluator left verbosity fuel)
      (Exec.evaluator right other fuel) := by
  rw [← @Exec.steppedBy_nextOf right]
  exact calls.evaluators laws (fun {part _ _} _ => Laws.nextOf (steps part)) counted fuel part

end Calls

end Transport

end Onepass
