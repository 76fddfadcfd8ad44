import Onepass.Proofs.Termination.Binding
import Onepass.Proofs.Termination.Iteration

/-! # Statements come to an end

Every statement moves the cursor on, however it ends. A block and a chain of branches end because their
parts stand one after the other, and a loop over fixed values because there are finitely many of them:
each iteration goes back to the beginning of the body, which stands after the header.
-/

set_option autoImplicit false

namespace Onepass.Exec

open Machine (Passed Past)

variable {script : Script} {machine start : Machine} {evaluators : Nat → Evaluator}

/-! ## Bodies -/

theorem proceeds_block {statement : Nat → Exec Signal}
    (statements : AdvancesFrom script statement machine) :
    Proceeds script (fun fuel => block script (statement fuel) fuel) machine := by
  induction machine using Past.induction script generalizing statement with
  | step machine ih =>
      apply Ends.shift
      apply Ends.currentKind
      generalize known : script.kindAt machine.cursor = kind
      cases kind
      case endOfInput => exact .refuseToken _
      case' symbol mark => cases mark
      case symbol.rightBrace => exact Proceeds.then (Answers.advance machine) fun _ _ _ => .pure _
      -- Every other token begins a statement.
      all_goals
        apply Advances.proceeds
        apply statements.later.here.then
        intro signal next past
        cases signal with
        | normal => exact ih next past (statements.later.onward past.toPassed)
        | _ => exact .pure _

/-- A block, or a single statement that begins after the construct which it belongs to. -/
theorem advances_body (finishes : Finishes script evaluators start)
    (reached : Passed script start machine)
    (inside : script.kindAt machine.cursor = .symbol .leftBrace ∨ start.cursor < machine.cursor)
    (scope : Scope) :
    Advances script (fun fuel => body script (evaluators fuel) scope fuel) machine := by
  have pushed : Passed script machine { machine with scopes := machine.scopes.push scope } :=
    .of_eq rfl rfl
  have content : Advances script (fun fuel => bodyContent script (evaluators fuel) fuel)
      { machine with scopes := machine.scopes.push scope } := by
    apply Ends.bind (ends_accept (.symbol .leftBrace) nofun)
    rintro braced middle (⟨rfl, past⟩ | ⟨rfl, single, rfl⟩)
    · have statements : AdvancesFrom script (fun fuel => (evaluators fuel).statement) middle :=
        fun _ passed => finishes.statement ((reached.trans pushed).past (past.passed passed))
      exact (proceeds_block statements).sincePast past
    · have ahead : start.cursor < machine.cursor := inside.resolve_left single
      exact finishes.statement ⟨reached.trans pushed, ahead⟩
  have closed : Ends (fun fuel => ensuring closeScope (bodyContent script (evaluators fuel) fuel))
      { machine with scopes := machine.scopes.push scope } fun _ => Past script machine := by
    apply Ends.ensuring content
    intro signal final past
    exact pushed.past (past.passed (.of_eq rfl rfl))
  exact closed

theorem advances_iterate (finishes : Finishes script evaluators start)
    (past : Past script start machine) (scope : Scope) :
    Advances script (fun fuel => iterate script (evaluators fuel) scope fuel) machine := by
  have counted : Passed script machine { machine with loopDepth := machine.loopDepth + 1 } :=
    .of_eq rfl rfl
  have restored : Ends (fun fuel => ensuring
      (fun machine => { machine with loopDepth := machine.loopDepth - 1 })
      (body script (evaluators fuel) scope fuel))
      { machine with loopDepth := machine.loopDepth + 1 } fun _ => Past script machine := by
    apply Ends.ensuring (advances_body finishes (past.toPassed.trans counted) (.inr past.ahead) scope)
    intro signal final further
    exact counted.past (further.passed (.of_eq rfl rfl))
  exact restored

/-! ## Conditionals -/

theorem advances_condition (finishes : Finishes script evaluators machine) :
    Advances script (fun fuel => conditionInParentheses script (evaluators fuel)) machine := by
  apply (advances_expectSymbol .leftParen).then
  intro _ inside past
  have condition : Proceeds script (fun fuel => condition script (evaluators fuel)) inside := by
    apply Ends.current
    apply (finishes.expression past).proceeds.then
    intro value after _
    cases value with
    | boolean value => exact .pure value
    | _ => exact .refuseDescribed _ _ _
  apply condition.then
  intro holds after _
  apply (advances_expectSymbol .rightParen).proceeds.then
  intro _ _ _
  exact .pure holds

theorem proceeds_branches (finishes : Finishes script evaluators machine) (taken : Bool) :
    Proceeds script (fun fuel => branches script (evaluators fuel) fuel taken) machine := by
  induction machine using Past.induction script generalizing evaluators taken with
  | step machine ih =>
      have shifted := finishes.later
      apply Ends.shift
      apply Ends.bind (ends_accept (.keyword .elseIfWord) nofun)
      rintro another middle (⟨rfl, past⟩ | ⟨rfl, -, rfl⟩)
      · have rest (taken : Bool) {next : Machine} (passed : Passed script middle next) :
            Proceeds script (fun fuel => branches script (evaluators (fuel + 1)) fuel taken) next :=
          ih next (past.passed passed) (shifted.onward (past.passed passed).toPassed) taken
        apply Proceeds.since _ past.toPassed
        apply (advances_condition (shifted.onward past.toPassed)).proceeds.then
        intro holds header read
        have begun := past.passed read
        apply Ends.ite
        · intro _
          apply Proceeds.then (advances_body shifted begun.toPassed (.inr begun.ahead) .empty).proceeds
          intro signal after executed
          cases signal with
          | normal => exact rest true (read.trans executed)
          | _ => exact .pure _
        · intro _
          apply Proceeds.then advances_passBody.proceeds
          intro _ after passed
          exact rest taken (read.trans passed)
      · apply Ends.bind (ends_accept (.keyword .elseWord) nofun)
        rintro last middle (⟨rfl, past⟩ | ⟨rfl, -, rfl⟩)
        · apply Proceeds.since _ past.toPassed
          cases taken with
          | true => exact advances_passBody.proceeds.then fun _ _ _ => .pure _
          | false => exact (advances_body shifted past.toPassed (.inr past.ahead) .empty).proceeds
        · exact Proceeds.pure _

theorem advances_conditional (finishes : Finishes script evaluators machine) :
    Advances script (fun fuel => conditional script (evaluators fuel) fuel) machine := by
  apply (advances_expect (.keyword .ifWord) nofun).then
  intro _ begun past
  apply (advances_condition (finishes.onward past.toPassed)).proceeds.then
  intro holds header read
  have begun := past.passed read
  cases holds with
  | true =>
      apply (advances_body finishes begun.toPassed (.inr begun.ahead) .empty).proceeds.then
      intro signal after executed
      cases signal with
      | normal => exact proceeds_branches (finishes.onward (begun.passed executed).toPassed) true
      | _ => exact .pure _
  | false =>
      apply advances_passBody.proceeds.then
      intro _ after passed
      exact proceeds_branches (finishes.onward (begun.passed passed).toPassed) false

/-! ## Loops -/

/-- Where the body of a loop ends, as far as it is known, is after its beginning. -/
def EndsAfter (script : Script) (bodyStart : Nat) (known : Option Nat) : Prop :=
  ∀ finish, known = some finish → script.Within bodyStart finish ∧ bodyStart < finish

theorem ends_leaveLoop {known : Option Nat} (after : EndsAfter script start.cursor known)
    (frames : machine.frames = start.frames) :
    Ends (fun _ => leaveLoop script start.cursor known) machine fun _ => Past script start := by
  cases known with
  | some finish =>
      obtain ⟨within, ahead⟩ := after finish rfl
      exact .of_ok rfl ⟨⟨frames, within⟩, ahead⟩
  | none =>
      apply Ends.bind (ends_bodyEnd start.cursor)
      rintro finish _ ⟨rfl, within, ahead⟩
      exact .of_ok rfl ⟨⟨frames, within⟩, ahead⟩

theorem ends_noteEnd {known : Option Nat} (after : EndsAfter script start.cursor known)
    (past : Past script start machine) (signal : Signal) :
    Ends (fun _ => noteEnd known signal) machine fun next final =>
      final = machine ∧ EndsAfter script start.cursor next := by
  have kept : Ends (fun _ => (return known : Exec (Option Nat))) machine fun next final =>
      final = machine ∧ EndsAfter script start.cursor next := .of_ok rfl ⟨rfl, after⟩
  cases known with
  | some finish => exact kept
  | none =>
      cases signal with
      | normal =>
          apply Ends.of_ok rfl
          apply And.intro rfl
          rintro finish ⟨⟩
          exact ⟨past.within, past.ahead⟩
      | _ => exact kept

/-- An iteration goes back to the beginning of the body, and what follows it is left to the caller. -/
theorem ends_round {header : Machine} (finishes : Finishes script evaluators start)
    (begun : Past script start header) (frames : machine.frames = header.frames) (scope : Scope)
    {known : Option Nat} (after : EndsAfter script header.cursor known)
    {rest : Nat → Option Nat → Exec Signal}
    (follows : ∀ ⦃next known⦄, Passed script header next → EndsAfter script header.cursor known →
      Ends (fun fuel => rest fuel known) next fun _ => Past script header) :
    Ends (fun fuel => do
      moveTo header.cursor
      let signal ← iterate script (evaluators fuel) scope fuel
      let known ← noteEnd known signal
      match signal with
      | .breaking => leaveLoop script header.cursor known
      | .returning => return .returning
      | _ => rest fuel known) machine fun _ => Past script header := by
  apply Ends.moveTo
  have back : Passed script header { machine with cursor := header.cursor } := .of_eq rfl frames
  apply Ends.bind (advances_iterate finishes (begun.passed back) scope)
  intro signal middle iterated
  have past := back.past iterated
  apply Ends.bind (ends_noteEnd after past signal)
  rintro noted _ ⟨rfl, after⟩
  cases signal with
  | breaking => exact ends_leaveLoop after past.frames
  | returning => exact .of_ok rfl past
  | normal | continuing => exact follows past.toPassed after

/-- The iterations of a loop, from the machine at the beginning of its body. -/
theorem ends_traverse {header : Machine} (finishes : Finishes script evaluators start)
    (begun : Past script start header) (name : Token) (type : DeclaredType) {iteration : Iteration}
    (finite : iteration.Finite) (reached : Passed script header machine) {known : Option Nat}
    (after : EndsAfter script header.cursor known) :
    Ends (fun fuel => traverse script (evaluators fuel) name type header.cursor fuel iteration known)
      machine fun _ => Past script header := by
  -- The values are gone through one by one; the fuel of the iterations does not matter.
  induction finite generalizing evaluators machine known with
  | intro iteration _ ih =>
      have shifted := finishes.later
      apply Ends.shift
      have given : Ends (fun _ => nextOf iteration) machine fun next final =>
          iteration.next? = .ok next ∧ final = machine := by
        unfold nextOf
        cases iteration.next? with
        | error refusal => cases refusal <;> exact .throw nofun
        | ok next => exact .of_ok rfl ⟨rfl, rfl⟩
      apply given.bind
      rintro next machine ⟨found, rfl⟩
      cases next with
      | none => exact ends_leaveLoop after reached.frames
      | some pair =>
          obtain ⟨value, rest⟩ := pair
          apply ((Answers.conforms value type machine).since reached).bind
          intro fits checked reached
          apply Ends.ite
          · intro _
            exact Ends.bind (.of_ok rfl trivial) fun _ _ (_ : True) => .stopped (.refuse _ _)
          · intro _
            apply ends_round shifted begun reached.frames _ after
            intro next known passed after
            exact ih rest ⟨value, found⟩ shifted passed after

theorem proceeds_iteration (finishes : Finishes script evaluators start)
    (past : Past script start machine) :
    Ends (fun fuel => iteration script (evaluators fuel).expression) machine fun iteration final =>
      Passed script machine final ∧ iteration.Finite := by
  apply Ends.known _ fun _ _ _ ran => iteration_finite ran
  have read {next : Machine} (passed : Passed script machine next) :
      Proceeds script (fun fuel => (evaluators fuel).expression) next :=
    (finishes.expression (past.passed passed)).proceeds
  apply Ends.current
  apply Proceeds.then (read (.refl machine))
  intro first afterFirst begun
  apply (Answers.accept _ afterFirst).then
  intro ranged afterDots dots
  cases ranged with
  | false => exact Answers.iterationOver first _ afterDots
  | true =>
      apply Ends.current
      apply Proceeds.then (read (begun.trans dots))
      intro last afterLast ended
      have step : Proceeds script (fun fuel => rangeStep script (evaluators fuel).expression)
          afterLast := by
        apply (Answers.accept _ afterLast).then
        intro stepped next passed
        cases stepped with
        | false => exact .current (Proceeds.pure _)
        | true =>
            apply Ends.current
            apply Proceeds.then (read (begun.trans (dots.trans (ended.trans passed))))
            intro _ _ _
            exact .pure _
      apply step.then
      intro stepped afterStep _
      apply (Answers.boundOf first _ afterStep).then
      intro lower afterLower _
      apply (Answers.boundOf last _ afterLower).then
      intro upper afterUpper _
      apply (Answers.boundOf stepped.1 _ afterUpper).then
      intro distance afterDistance _
      exact .guarded (.refuse _ _) (Proceeds.pure _)

theorem advances_traversal (finishes : Finishes script evaluators machine) :
    Advances script (fun fuel => traversal script (evaluators fuel) fuel) machine := by
  apply (advances_expect (.keyword .forWord) nofun).then
  intro _ begun past
  apply (advances_expectSymbol .leftParen).proceeds.then
  intro _ inside opened
  apply (advances_expect .identifier nofun).proceeds.then
  intro name afterName named
  apply (advances_expectSymbol .colon).proceeds.then
  intro _ afterColon colon
  apply advances_readType.proceeds.then
  intro type afterType typed
  apply (advances_expect (.keyword .inWord) nofun).proceeds.then
  intro _ afterIn entered
  have reached := past.passed (opened.trans (named.trans (colon.trans (typed.trans entered))))
  apply Ends.bind (proceeds_iteration finishes reached)
  rintro values afterValues ⟨read, finite⟩
  apply Ends.bind (advances_expectSymbol .rightParen)
  intro _ header closed
  apply Ends.get
  have after : EndsAfter script header.cursor none := nofun
  apply (ends_traverse finishes (reached.passed (read.trans closed.toPassed)) name type finite
    (.refl header) after).weaken
  intro _ final further
  exact read.trans (closed.trans further).toPassed

/-! ## Other statements -/

theorem proceeds_printedValues (finishes : Finishes script evaluators start)
    (past : Past script start machine) :
    Proceeds script (fun fuel => printedValues script (evaluators fuel) fuel) machine := by
  induction machine using Past.induction script generalizing evaluators with
  | step machine ih =>
      have shifted := finishes.later
      have another : Advances script (fun fuel => do
          let text ← printed (← (evaluators (fuel + 1)).expression)
          let _ ← accept script (.symbol .comma)
          return text ++ (← printedValues script (evaluators (fuel + 1)) fuel)) machine := by
        apply (shifted.expression past).then
        intro value afterValue read
        apply (Answers.printed value afterValue).then
        intro text shown printing
        apply (Answers.accept _ shown).then
        intro _ next passed
        have further := read.passed (printing.trans passed)
        exact (ih next further shifted (past.trans further)).then fun _ _ _ => .pure _
      apply Ends.shift
      apply Ends.currentKind
      generalize script.kindAt machine.cursor = kind
      cases kind with
      | endOfInput => exact .refuseToken _
      | symbol mark =>
          cases mark with
          | rightParen => exact Proceeds.pure ""
          | _ => exact another.proceeds
      | _ => exact another.proceeds

theorem advances_printValues (finishes : Finishes script evaluators machine)
    (proper : script.kindAt machine.cursor ≠ .endOfInput) :
    Advances script (fun fuel => printValues script (evaluators fuel) fuel) machine := by
  apply (advances_advance proper).then
  intro keyword begun past
  apply (advances_expectSymbol .leftParen).proceeds.then
  intro _ inside opened
  apply (proceeds_printedValues finishes (past.passed opened)).then
  intro text after _
  apply (advances_expectSymbol .rightParen).proceeds.then
  intro _ last _
  exact .changed rfl rfl

theorem advances_jump (proper : script.kindAt machine.cursor ≠ .endOfInput) :
    Advances script (fun _ => jump script) machine := by
  apply (advances_advance proper).then
  intro token next past
  apply Ends.get
  apply Ends.guarded (.refuse _ _)
  exact Proceeds.then (Answers.acceptSemicolon next) fun _ _ _ => .pure _

theorem advances_returnFrom (finishes : Finishes script evaluators machine)
    (proper : script.kindAt machine.cursor ≠ .endOfInput) :
    Advances script (fun fuel => returnFrom script (evaluators fuel)) machine := by
  apply (advances_advance proper).then
  intro token next past
  apply Ends.get
  cases next.frames with
  | nil => exact .refuse _ _
  | cons function others =>
      have returned : Proceeds script
          (fun fuel => returnedValue script (evaluators fuel) function token) next := by
        apply Ends.current
        apply Ends.get
        apply Ends.ite
        · intro _
          apply Proceeds.then (finishes.expression past).proceeds
          intro value after _
          apply (Answers.conforms value _ after).then
          intro fits checked _
          cases fits with
          | true => exact .pure value
          | false => exact .refuseDescribed _ _ _
        · intro _
          apply Ends.ite
          · intro _
            exact Proceeds.pure _
          · intro _
            exact .refuse _ _
      apply returned.then
      intro value after _
      apply (Answers.retag value _ after).then
      intro _ retagged _
      apply (Answers.giveBack value retagged).then
      intro _ given _
      exact Proceeds.then (Answers.acceptSemicolon given) fun _ _ _ => .pure _

theorem advances_simple {action : Nat → Exec Unit} (advances : Advances script action machine) :
    Advances script (fun fuel => simple script (action fuel)) machine := by
  apply advances.then
  intro _ middle _
  exact Proceeds.then (Answers.acceptSemicolon middle) fun _ _ _ => .pure _

theorem advances_empty (semicolon : script.kindAt machine.cursor = .symbol .semicolon) :
    Advances script (fun _ => simple script (pure ())) machine := by
  have read : acceptSemicolon script machine = .ok () { machine with cursor := machine.cursor + 1 } := by
    rw [acceptSemicolon_eq, if_pos semicolon]
  have past : Past script machine { machine with cursor := machine.cursor + 1 } :=
    .token (by simp [semicolon])
  change Ends (fun _ => do acceptSemicolon script; return Signal.normal) machine _
  exact Ends.bind (.of_ok read past) fun _ _ past => .of_ok rfl past

theorem advances_namedStatement (finishes : Finishes script evaluators machine)
    (named : script.kindAt machine.cursor = .identifier) :
    Advances script (fun fuel => namedStatement script (evaluators fuel) fuel) machine := by
  apply Ends.followingKind
  apply Ends.ite
  · intro _
    exact advances_variableDeclaration finishes
  · intro _
    apply Ends.ite
    · intro _
      exact (advances_call finishes).then fun _ _ _ => .pure ()
    · intro _
      apply Ends.ite
      · intro _
        exact advances_assignment finishes (by simp [named])
      · intro _
        exact .current (.refuse _ _)

/-- Every statement but a loop with a condition comes to an end. -/
theorem advances_perform (finishes : Finishes script evaluators machine) {kind : Kind}
    (known : script.kindAt machine.cursor = kind) (counted : kind ≠ .keyword .whileWord)
    (position : Position) :
    Advances script (fun fuel => perform script (evaluators fuel) fuel kind position) machine := by
  cases kind with
  | keyword word =>
      have proper : script.kindAt machine.cursor ≠ .endOfInput := by simp [known]
      cases word with
      | printWord | printlnWord => exact advances_simple (advances_printValues finishes proper)
      | ifWord => exact advances_conditional finishes
      | forWord => exact advances_traversal finishes
      | whileWord => exact absurd rfl counted
      | funcWord => exact advances_simple advances_functionDeclaration
      | returnWord => exact advances_returnFrom finishes proper
      | breakWord | continueWord => exact advances_jump proper
      | _ => exact .refuse _ _
  | symbol mark =>
      cases mark with
      | leftBrace => exact advances_body finishes (.refl machine) (.inl known) .empty
      | dollar => exact advances_simple (advances_variableDeclaration finishes)
      | semicolon => exact advances_empty known
      | _ => exact .refuse _ _
  | identifier => exact advances_simple (advances_namedStatement finishes known)
  | _ => exact .refuse _ _

end Onepass.Exec
