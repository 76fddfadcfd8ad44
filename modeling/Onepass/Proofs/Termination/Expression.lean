import Onepass.Proofs.Termination.Reading

/-! # Expressions and calls come to an end

An expression is read from left to right, each operand at a place further on than the one before. An
expression inside it begins after the token that opens it, and a call runs with one more active call.
So every part is either further on in the script or deeper in the calls, and both are bounded.
-/

set_option autoImplicit false

namespace Onepass

open Machine (Passed Past)

/-- The parts of a construct come to an end: the expressions and the statements that begin after the
cursor, and the statements of a function that is called. -/
structure Finishes (script : Script) (evaluators : Nat → Evaluator) (machine : Machine) : Prop where
  expression : ∀ ⦃next⦄, Past script machine next →
    Exec.Advances script (fun fuel => (evaluators fuel).expression) next
  statement : ∀ ⦃next⦄, Past script machine next →
    Exec.Advances script (fun fuel => (evaluators fuel).statement) next
  called : machine.frames.length < Exec.maxCallDepth →
    ∀ ⦃next⦄, next.frames.length = machine.frames.length + 1 →
      Exec.Advances script (fun fuel => (evaluators fuel).statement) next

namespace Finishes

variable {script : Script} {evaluators : Nat → Evaluator} {machine next : Machine}
variable (finishes : Finishes script evaluators machine)

include finishes

theorem later : Finishes script (fun fuel => evaluators (fuel + 1)) machine where
  expression _ past := (finishes.expression past).later
  statement _ past := (finishes.statement past).later
  called shallow _ deeper := (finishes.called shallow deeper).later

theorem onward (passed : Passed script machine next) : Finishes script evaluators next where
  expression _ past := finishes.expression (passed.past past)
  statement _ past := finishes.statement (passed.past past)
  called := by
    rw [passed.frames]
    exact finishes.called

theorem expressions (past : Past script machine next) :
    Exec.AdvancesFrom script (fun fuel => (evaluators fuel).expression) next :=
  fun _ passed => finishes.expression (past.passed passed)

end Finishes

namespace Exec

variable {script : Script} {machine : Machine} {evaluators : Nat → Evaluator}

/-! ## Literals -/

theorem advances_piece (piece : (script.kindAt machine.cursor).isStringPiece = true)
    (rest : ∀ ⦃next⦄, Past script machine next →
      Proceeds script (fun fuel => stringLiteral script fuel) next) :
    Advances script (fun fuel => stringLiteral script fuel) machine := by
  apply Ends.shift
  apply Ends.currentKind
  have read : Advances script (fun _ => advance script) machine :=
    advances_advance (Script.kindAt_ne_of_ordinary (Kind.isOrdinary_of_piece piece))
  generalize script.kindAt machine.cursor = kind at piece
  cases kind with
  | stringLiteral =>
      apply read.then
      intro token middle past
      exact (rest past).then fun _ _ _ => .pure _
  | reference =>
      apply read.then
      intro token middle past
      apply (Answers.valueOf token middle).then
      intro value after looked
      apply (Answers.printed value after).then
      intro text last shown
      exact (rest (past.passed (looked.trans shown))).then fun _ _ _ => .pure _
  | _ => cases piece

theorem proceeds_stringLiteral : Proceeds script (fun fuel => stringLiteral script fuel) machine := by
  induction machine using Past.induction script with
  | step machine ih =>
      by_cases piece : (script.kindAt machine.cursor).isStringPiece = true
      · exact (advances_piece piece ih).proceeds
      · apply Ends.shift
        apply Ends.currentKind
        generalize script.kindAt machine.cursor = kind at piece
        cases kind with
        | stringLiteral => exact absurd rfl piece
        | reference => exact absurd rfl piece
        | _ => exact Proceeds.pure ""

theorem advances_checkedArray (element : DeclaredType) {item : Nat → Exec Value}
    (items : ∀ ⦃next⦄, Past script machine next → Advances script item next) :
    Advances script (fun fuel => checkedArray script element (item fuel) fuel) machine := by
  have checked {next : Machine} (past : Past script machine next) :
      Advances script (fun fuel => checkedArray.checked script element (item fuel)) next := by
    apply Ends.current
    apply Advances.then (items past)
    intro value middle _
    apply (Answers.conforms value element middle).then
    intro fits after _
    cases fits with
    | true => exact .pure value
    | false => exact Answers.refuseDescribed value _ _ after
  apply (advances_expectSymbol .leftBracket).then
  intro _ inside past
  apply Proceeds.then (proceeds_separated .rightBracket fun _ passed => checked (past.passed passed))
  intro values after _
  apply (advances_expectSymbol .rightBracket).proceeds.then
  intro _ last _
  exact Answers.allocate values _ last

theorem advances_declaredArray (finishes : Finishes script evaluators machine) (base : String)
    (dimensions : Nat) :
    Advances script (fun fuel => declaredArray script (evaluators fuel) fuel base dimensions)
      machine := by
  induction dimensions generalizing machine with
  | zero => exact advances_checkedArray _ fun _ past => finishes.expression past
  | succ dimensions ih =>
      apply advances_checkedArray
      intro next past
      apply Ends.currentKind
      apply Ends.ite
      · intro _
        exact ih (finishes.onward past.toPassed)
      · intro _
        exact finishes.expression past

theorem advances_freeArray (finishes : Finishes script evaluators machine) :
    Advances script (fun fuel => freeArray script (evaluators fuel) fuel) machine := by
  apply (advances_expectSymbol .leftBracket).then
  intro _ inside past
  apply Proceeds.then (proceeds_separated .rightBracket (finishes.expressions past))
  intro values after _
  apply (advances_expectSymbol .rightBracket).proceeds.then
  intro _ last _
  apply Ends.get
  cases sharedType (values.map last.heap.describe) with
  | ok element => exact Answers.allocate values element last
  | error cause => exact .current (.refuse _ _)

/-! ## Operands and operators -/

theorem advances_primary (finishes : Finishes script evaluators machine) {call : Nat → Exec Value}
    (calls : Advances script call machine) :
    Advances script (fun fuel => primary script (evaluators fuel) (call fuel) fuel) machine := by
  apply Ends.current
  generalize known : (script.tokenAt machine.cursor).kind = kind
  have read (proper : kind ≠ .endOfInput) : Advances script (fun _ => advance script) machine :=
    advances_advance (by rw [Script.kindAt, known]; exact proper)
  have single (proper : kind ≠ .endOfInput) (value : Value) :
      Advances script (fun _ => do let _ ← advance script; return value) machine :=
    (read proper).then fun _ _ _ => .pure value
  have pieces (piece : kind.isStringPiece = true) :
      Advances script (fun fuel => do return Value.string (← stringLiteral script fuel)) machine := by
    rw [← known] at piece
    exact (advances_piece piece fun _ _ => proceeds_stringLiteral).then fun _ _ _ => .pure _
  cases kind with
  | numberLiteral => exact single (by simp) _
  | stringLiteral => exact pieces rfl
  | reference => exact pieces rfl
  | charLiteral =>
      apply (read (by simp)).then
      intro _ middle _
      cases (script.tokenAt machine.cursor).word.toList with
      | nil => exact Answers.refuse _ _ middle
      | cons char _ => exact .pure _
  | booleanLiteral => exact single (by simp) _
  | identifier =>
      apply Ends.followingKind
      apply Ends.ite
      · intro _
        exact calls
      · intro _
        apply Advances.then (read (by simp))
        intro _ middle _
        exact Answers.valueOf _ middle
  | keyword word =>
      cases word with
      | nullWord => exact single (by simp) _
      | _ => exact .refuse _ _
  | symbol mark =>
      cases mark with
      | leftParen =>
          apply (read (by simp)).then
          intro _ inside past
          apply (finishes.expression past).proceeds.then
          intro value after _
          apply (advances_expectSymbol .rightParen).proceeds.then
          intro _ last _
          exact .pure value
      | leftBracket => exact advances_freeArray finishes
      | dollar =>
          apply (read (by simp)).then
          intro _ middle _
          apply Proceeds.then (advances_expect .identifier (by simp)).proceeds
          intro name after _
          exact Answers.valueOf name after
      | _ => exact .refuse _ _
  | _ => exact .refuse _ _

theorem proceeds_suffixes (finishes : Finishes script evaluators machine) (value : Value) :
    Proceeds script (fun fuel => suffixes script (evaluators fuel) fuel value) machine := by
  induction machine using Past.induction script generalizing evaluators value with
  | step machine ih =>
      have shifted := finishes.later
      apply Ends.shift
      apply Ends.currentKind
      generalize known : script.kindAt machine.cursor = kind
      cases kind with
      | symbol mark =>
          cases mark with
          | leftBracket =>
              apply Advances.proceeds
              apply (advances_advance (by simp [known])).then
              intro _ inside past
              apply Ends.current
              apply (shifted.expression past).proceeds.then
              intro index after read
              apply (advances_expectSymbol .rightBracket).proceeds.then
              intro _ last closed
              apply (Answers.elementAt value index _ last).then
              intro element final found
              have further := past.passed (read.trans (closed.trans found))
              exact ih final further (shifted.onward further.toPassed) element
          | dot =>
              apply Advances.proceeds
              apply (advances_advance (by simp [known])).then
              intro _ middle past
              apply Proceeds.then (advances_expect .identifier nofun).proceeds
              intro member after named
              apply Ends.ite
              · intro _
                exact .refuse _ _
              · intro _
                apply Proceeds.then (Answers.lengthOf value member after)
                intro length final found
                have further := past.passed (named.trans found)
                exact ih final further (shifted.onward further.toPassed) length
          | _ => exact Proceeds.pure value
      | _ => exact Proceeds.pure value

theorem advances_unary (finishes : Finishes script evaluators machine) {call : Nat → Exec Value}
    (calls : AdvancesFrom script call machine) :
    Advances script (fun fuel => unary script (evaluators fuel) (call fuel) fuel) machine := by
  induction machine using Past.induction script generalizing evaluators call with
  | step machine ih =>
      have shifted := finishes.later
      apply Ends.shift
      apply Ends.current
      cases known : (script.tokenAt machine.cursor).kind.unary? with
      | some operator =>
          have proper : script.kindAt machine.cursor ≠ .endOfInput := by
            intro ended
            rw [← Script.kindAt, ended] at known
            cases known
          apply (advances_advance proper).then
          intro _ middle past
          apply (ih middle past (shifted.onward past.toPassed)
            (calls.later.onward past.toPassed)).proceeds.then
          intro value after _
          exact Answers.located _ _ after
      | none =>
          apply (advances_primary shifted calls.later.here).then
          intro value middle past
          exact proceeds_suffixes (shifted.onward past.toPassed) value

theorem proceeds_chain (rank : Rank) {operand : Nat → Exec Value}
    (operands : AdvancesFrom script operand machine) (left : Value) :
    Proceeds script (fun fuel => chain script rank (operand fuel) fuel left) machine := by
  induction machine using Past.induction script generalizing operand left with
  | step machine ih =>
      apply Ends.shift
      apply Ends.current
      cases (script.tokenAt machine.cursor).kind.binaryOf? rank with
      | none => exact Proceeds.pure left
      | some operator =>
          apply (Answers.advance machine).then
          intro _ middle begun
          apply Advances.proceeds
          apply (operands.later begun).then
          intro right after past
          apply (Answers.applyBinary _ operator left right after).then
          intro value last applied
          have further := begun.past (past.passed applied)
          exact ih last further (operands.later.onward further.toPassed) value

theorem advancesFrom_ranked (rank : Rank) {operand : Nat → Exec Value}
    (operands : AdvancesFrom script operand machine) :
    AdvancesFrom script (fun fuel => ranked script rank (operand fuel) fuel) machine := by
  intro next passed
  apply (operands passed).then
  intro left middle past
  exact proceeds_chain rank (operands.onward (passed.past past).toPassed) left

theorem proceeds_typeTests (value : Value) :
    Proceeds script (fun fuel => typeTests script fuel value) machine := by
  induction machine using Past.induction script generalizing value with
  | step machine ih =>
      apply Ends.shift
      apply Ends.currentKind
      apply Ends.ite
      · intro asked
        have proper : script.kindAt machine.cursor ≠ .endOfInput := by
          intro ended
          simp [ended] at asked
        apply Advances.proceeds
        apply (advances_advance proper).then
        intro _ middle past
        apply Ends.current
        apply Ends.ite
        · intro _
          apply Proceeds.then (Answers.advance middle)
          intro _ after named
          apply (Answers.testOrConvert _ value _ after).then
          intro result last tested
          exact ih last (past.passed (named.trans tested)) result
        · intro _
          exact .refuse _ _
      · intro _
        exact Proceeds.pure value

theorem advancesFrom_comparison (finishes : Finishes script evaluators machine)
    {call : Nat → Exec Value} (calls : AdvancesFrom script call machine) :
    AdvancesFrom script (fun fuel => comparison script (evaluators fuel) (call fuel) fuel) machine := by
  have unaries :
      AdvancesFrom script (fun fuel => unary script (evaluators fuel) (call fuel) fuel) machine :=
    fun _ passed => advances_unary (finishes.onward passed) (calls.onward passed)
  have sums := advancesFrom_ranked .sum (advancesFrom_ranked .product unaries)
  have operands :
      AdvancesFrom script (fun fuel => typeTest script (evaluators fuel) (call fuel) fuel) machine :=
    fun _ passed => (sums passed).then fun value _ _ => proceeds_typeTests value
  intro next passed
  apply (operands passed).then
  intro left middle past
  apply Ends.current
  cases (script.tokenAt middle.cursor).kind.binaryOf? .comparison with
  | none => exact Proceeds.pure left
  | some operator =>
      apply (Answers.advance middle).then
      intro _ inside begun
      apply (operands (passed.trans (past.toPassed.trans begun))).proceeds.then
      intro right after _
      exact Answers.applyBinary _ operator left right after

theorem advances_disjunction (finishes : Finishes script evaluators machine)
    {call : Nat → Exec Value} (calls : AdvancesFrom script call machine) :
    Advances script (fun fuel => disjunction script (evaluators fuel) (call fuel) fuel) machine :=
  (advancesFrom_ranked .disjunction
    (advancesFrom_ranked .conjunction (advancesFrom_comparison finishes calls))).here

/-! ## Calls -/

/-- The statements of a body end because each of them moves the cursor on. -/
theorem proceeds_statementsUntil {statement : Nat → Exec Signal} (finish : Nat)
    (statements : AdvancesFrom script statement machine) :
    Proceeds script (fun fuel => statementsUntil (statement fuel) finish fuel) machine := by
  induction machine using Past.induction script generalizing statement with
  | step machine ih =>
      apply Ends.shift
      apply Ends.get
      apply Ends.ite
      · intro _
        apply Advances.proceeds
        apply statements.later.here.then
        intro signal next past
        cases signal with
        | normal => exact ih next past (statements.later.onward past.toPassed)
        | _ => exact .pure _
      · intro _
        exact Proceeds.pure _

theorem proceeds_callBody {statement : Nat → Exec Signal} (finish : Nat)
    (statements : AdvancesFrom script statement machine) :
    Proceeds script (fun fuel => callBody (statement fuel) finish fuel) machine := by
  apply (proceeds_statementsUntil finish statements).then
  intro signal final _
  apply Ends.get
  exact Proceeds.pure _

theorem proceeds_invoke (finishes : Finishes script evaluators machine)
    (shallow : machine.frames.length < maxCallDepth) (function : Function) (arguments : List Value)
    (name : Token) :
    Proceeds script (fun fuel => invoke (evaluators fuel) function arguments name fuel) machine := by
  have statements : AdvancesFrom script (fun fuel => (evaluators fuel).statement)
      (enterCall function arguments machine) := by
    intro next passed
    apply finishes.called shallow
    rw [passed.frames]
    rfl
  -- The caller is put back as it was.
  have body : Ends (fun fuel => ensuring (leaveCall machine.cursor machine.loopDepth)
      (callBody (evaluators fuel).statement function.finish fuel))
      (enterCall function arguments machine) fun _ => Passed script machine := by
    apply Ends.ensuring (proceeds_callBody function.finish statements)
    intro ended final passed
    have frames : (leaveCall machine.cursor machine.loopDepth final).frames = machine.frames :=
      congrArg List.tail passed.frames
    exact .of_eq rfl frames
  apply body.bind
  intro ended middle passed
  exact (Answers.callResult function name ended middle).since passed

theorem advances_call (finishes : Finishes script evaluators machine) :
    Advances script (fun fuel => call script (evaluators fuel) fuel) machine := by
  apply (advances_expect .identifier nofun).then
  intro name afterName named
  apply (advances_expectSymbol .leftParen).proceeds.then
  intro _ inside opened
  have begun := named.passed opened
  have items : AdvancesFrom script (fun fuel => do
      let token ← current script
      return (token, ← (evaluators fuel).expression)) inside := by
    intro next passed
    apply Ends.current
    exact (finishes.expression (begun.passed passed)).then fun _ _ _ => .pure _
  apply Proceeds.then (proceeds_separated .rightParen items)
  intro given after read
  apply (advances_expectSymbol .rightParen).proceeds.then
  intro _ ready closed
  have finishes := finishes.onward (begun.passed (read.trans closed)).toPassed
  apply Ends.get
  cases ready.functions.lookup? name.word with
  | none => exact .refuse _ _
  | some function =>
      apply Ends.ite
      · intro _
        exact .refuse _ _
      · intro _
        apply Proceeds.then (Answers.checkArguments _ _ ready)
        intro _ checked passed
        apply Ends.get
        apply Ends.ite
        · intro _
          exact .refuse _ _
        · intro shallow
          exact proceeds_invoke (finishes.onward passed) (by omega) function _ name

end Exec

end Onepass
