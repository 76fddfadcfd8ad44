import Onepass.Proofs.Termination.Expression

/-! # Declarations and assignments come to an end

They read a name, and then at most one expression, a list of indices or a list of parameters. The body of
a function that is declared is passed over.
-/

set_option autoImplicit false

namespace Onepass.Exec

open Machine (Passed Past)

variable {α β : Type} {script : Script} {machine start : Machine} {evaluators : Nat → Evaluator}

/-! ## More about sequences -/

theorem Ends.refuseDescribed {post : α → Machine → Prop} (value : Value) (cause : DeclaredType → Cause)
    (position : Position) :
    Ends (fun _ => (describe value >>= fun type => Exec.refuse (cause type) position : Exec α)) machine
      post :=
  Ends.bind (.of_ok rfl trivial) fun _ _ (_ : True) => .refuse _ _

theorem Ends.refuseToken {post : α → Machine → Prop} (wanted : Kind) :
    Ends (fun _ => (Exec.refuseToken script wanted : Exec α)) machine post :=
  .current (.refuse _ _)

/-- After a refusal nothing else is done. -/
theorem Ends.stopped {stop : Exec α} {next : Nat → α → Exec β} {post : β → Machine → Prop}
    (stops : Ends (fun _ => stop) machine fun _ _ => False) :
    Ends (fun fuel => stop >>= next fuel) machine post :=
  stops.bind fun _ _ impossible => impossible.elim

/-- A check before the rest of an action. -/
theorem Ends.guarded {condition : Prop} [Decidable condition] {stop : Exec Unit}
    {next : Nat → Unit → Exec β} {post : β → Machine → Prop}
    (stops : Ends (fun _ => stop) machine fun _ _ => False)
    (rest : Ends (fun fuel => next fuel ()) machine post) :
    Ends (fun fuel => if condition then stop >>= next fuel else next fuel ()) machine post := by
  apply Ends.ite
  · intro _
    exact .stopped stops
  · intro _
    exact rest

/-- What is known of every success is known of this one. -/
theorem Ends.known {action : Nat → Exec α} {post extra : α → Machine → Prop}
    (ends : Ends action machine post)
    (holds : ∀ fuel result final, action fuel machine = .ok result final → extra result final) :
    Ends action machine fun result final => post result final ∧ extra result final := by
  obtain ⟨outcome, settles, follows⟩ := ends
  apply Exists.intro outcome
  apply And.intro settles
  rintro result final rfl
  obtain ⟨fuel, ended⟩ := settles.exists_eq
  exact ⟨follows result final rfl, holds fuel result final ended⟩

theorem Ends.moveTo {place : Nat} {next : Nat → Unit → Exec β} {post : β → Machine → Prop}
    (ends : Ends (fun fuel => next fuel ()) { machine with cursor := place } post) :
    Ends (fun fuel => Exec.moveTo place >>= next fuel) machine post :=
  ends

theorem ends_accept (kind : Kind) (proper : kind ≠ .endOfInput) :
    Ends (fun _ => accept script kind) machine fun accepted final =>
      (accepted = true ∧ Past script machine final) ∨
        (accepted = false ∧ script.kindAt machine.cursor ≠ kind ∧ final = machine) := by
  apply (Ends.known (Answers.accept kind machine) fun _ _ _ ran => accept_ok proper ran).weaken
  rintro accepted final ⟨-, ⟨rfl, there, rfl⟩ | ⟨rfl, absent, rfl⟩⟩
  · exact .inl ⟨rfl, .token (by rw [there]; exact proper)⟩
  · exact .inr ⟨rfl, absent, rfl⟩

/-! ## Declarations and assignments -/

theorem advances_initializer (finishes : Finishes script evaluators start)
    (past : Past script start machine) (type : DeclaredType) :
    Advances script (fun fuel => initializer script (evaluators fuel) type fuel) machine := by
  unfold initializer
  cases type.dimensions with
  | zero => exact finishes.expression past
  | succ dimensions =>
      apply Ends.currentKind
      apply Ends.ite
      · intro _
        exact advances_declaredArray (finishes.onward past.toPassed) type.base dimensions
      · intro _
        exact finishes.expression past

theorem advances_declaredVariable (finishes : Finishes script evaluators machine) :
    Advances script (fun fuel => declaredVariable script (evaluators fuel) fuel) machine := by
  apply (Answers.accept _ machine).thenAdvances
  intro constant begun passed
  apply (advances_expect .identifier nofun).then
  intro name afterName named
  apply Ends.get
  apply Ends.guarded (.refuse _ _)
  apply Proceeds.then (advances_expectSymbol .colon).proceeds
  intro _ afterColon colon
  apply advances_readType.proceeds.then
  intro type afterType typed
  apply Ends.guarded (.refuse _ _)
  apply Proceeds.then (advances_expectSymbol .equal).proceeds
  intro _ afterEqual equal
  apply Ends.current
  have past := passed.past (named.passed (colon.trans (typed.trans equal)))
  apply (advances_initializer finishes past type).proceeds.then
  intro value afterValue _
  apply (Answers.adopt value _ _ afterValue).then
  intro _ _ _
  exact .pure _

theorem advances_variableDeclaration (finishes : Finishes script evaluators machine) :
    Advances script (fun fuel => variableDeclaration script (evaluators fuel) fuel) machine := by
  apply (advances_declaredVariable finishes).then
  intro declared middle _
  exact .changed rfl rfl

theorem proceeds_indices (finishes : Finishes script evaluators machine) :
    Proceeds script (fun fuel => indices script (evaluators fuel) fuel) machine := by
  induction machine using Past.induction script generalizing evaluators with
  | step machine ih =>
      have shifted := finishes.later
      apply Ends.shift
      apply Ends.currentKind
      apply Ends.ite
      · intro bracket
        apply Advances.proceeds
        apply (advances_advance (by simp [bracket])).then
        intro _ inside past
        apply Ends.current
        apply (shifted.expression past).proceeds.then
        intro index after read
        apply (advances_expectSymbol .rightBracket).proceeds.then
        intro _ last closed
        have further := past.passed (read.trans closed)
        exact (ih last further (shifted.onward further.toPassed)).then fun _ _ _ => .pure _
      · intro _
        exact Proceeds.pure []

theorem proceeds_assignedValue (finishes : Finishes script evaluators start)
    (past : Past script start machine) (operator : Token) (old : Value) :
    Proceeds script (fun fuel => assignedValue (evaluators fuel) operator old) machine := by
  have read := (finishes.expression past).proceeds
  have joined (compound : BinaryOperator) : Proceeds script (fun fuel => do
      let operand ← (evaluators fuel).expression
      applyBinary operator compound old operand) machine :=
    read.then fun _ after _ => Answers.applyBinary _ _ _ _ after
  unfold assignedValue
  cases operator.kind with
  | symbol mark =>
      cases mark with
      | plusPlus | minusMinus => exact Answers.applyBinary _ _ _ _ machine
      | plusEqual | minusEqual | asteriskEqual | slashEqual | percentEqual => exact joined _
      | _ => exact read
  | _ => exact read

theorem advances_assignment (finishes : Finishes script evaluators machine)
    (proper : script.kindAt machine.cursor ≠ .endOfInput) :
    Advances script (fun fuel => assignment script (evaluators fuel) fuel) machine := by
  have prepared : Advances script (fun fuel => preparedAssignment script (evaluators fuel) fuel)
      machine := by
    apply (advances_advance proper).then
    intro name afterName named
    apply (Answers.bindingOf name afterName).then
    intro _ bound looked
    have begun := named.passed looked
    apply Proceeds.then (proceeds_indices (finishes.onward begun.toPassed))
    intro selected afterIndices indexed
    apply Ends.current
    apply Ends.guarded (.refuse _ _)
    apply Proceeds.then (Answers.advance afterIndices)
    intro _ afterOperator moved
    apply (Answers.bindingOf name afterOperator).then
    intro binding again looked
    apply Ends.guarded (.refuse _ _)
    apply Proceeds.then (Answers.selectElement name binding.value selected again)
    intro target found selecting
    apply Ends.current
    apply Proceeds.then (Answers.targetValue binding target found)
    intro old ready got
    have past := begun.passed (indexed.trans (moved.trans (looked.trans (selecting.trans got))))
    apply (proceeds_assignedValue finishes past _ old).then
    intro value computed _
    apply Ends.get
    apply Proceeds.then (Answers.adopt value _ _ computed)
    intro _ _ _
    exact .pure _
  apply prepared.then
  intro assigned middle _
  exact Answers.store _ _ _ middle

theorem proceeds_parameters (function : String) (known : List Parameter) :
    Proceeds script (fun fuel => parameters script function known fuel) machine := by
  induction machine using Past.induction script generalizing known with
  | step machine ih =>
      apply Ends.shift
      apply Ends.currentKind
      apply Ends.ite
      · intro _
        exact Proceeds.pure known
      · intro _
        apply Advances.proceeds
        apply (advances_expect .identifier nofun).then
        intro name afterName past
        apply Ends.guarded (.refuse _ _)
        apply Proceeds.then (Answers.optionalType afterName)
        intro type afterType typed
        apply (Answers.accept _ afterType).then
        intro more after passed
        cases more with
        | true => exact ih after (past.passed (typed.trans passed)) _
        | false => exact .pure _

theorem advances_functionDeclaration :
    Advances script (fun fuel => functionDeclaration script fuel) machine := by
  apply (advances_expect (.keyword .funcWord) nofun).then
  intro _ begun _
  apply (advances_expect .identifier nofun).proceeds.then
  intro name afterName _
  apply (advances_expectSymbol .leftParen).proceeds.then
  intro _ inside _
  apply (proceeds_parameters name.word []).then
  intro signature afterParameters _
  apply (advances_expectSymbol .rightParen).proceeds.then
  intro _ closed _
  apply (Answers.optionalType closed).then
  intro returnType afterType _
  apply Ends.currentKind
  apply Ends.guarded (.refuseToken _)
  apply Ends.get
  apply Proceeds.then (advances_passOver fun found =>
    (Script.within_passable script).enclosed .curly found).proceeds
  intro _ after _
  apply Ends.get
  exact Answers.register _ _ after

end Onepass.Exec
