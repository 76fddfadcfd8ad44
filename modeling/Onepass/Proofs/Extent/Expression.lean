import Onepass.Proofs.Discipline.Standing
import Onepass.Proofs.Extent.Phrase

/-! # How far expressions reach when evaluated

An expression is read in two different ways: it is evaluated rank by rank, or passed over as a row of
operands. Both come to the same end, provided that what follows cannot continue an expression: a
comparison, for one, is not continued by another one when it is evaluated, but it is when it is passed
over.
-/

set_option autoImplicit false

namespace Onepass

namespace Exec

variable {α β : Type} {script : Script} {evaluator : Evaluator}

theorem binary_of_binaryOf {kind : Kind} {rank : Rank} {operator : BinaryOperator}
    (found : kind.binaryOf? rank = some operator) : kind.binary?.isSome = true := by
  rw [(Option.filter_eq_some_iff.mp found).1]
  rfl

/-- An action that succeeds leads the cursor between places that are related. -/
def Moves (relation : Nat → Nat → Prop) (action : Exec α) : Prop :=
  ∀ ⦃machine final : Machine⦄ ⦃result : α⦄, action machine = .ok result final →
    relation machine.cursor final.cursor

namespace Moves

theorem of_unchanged {action : Exec α} (keeps : Keeps (fun first last => last = first) action) :
    Moves Eq action :=
  fun _ _ _ ran => congrArg Machine.cursor (keeps.ok ran).symm

theorem weaken {relation wider : Nat → Nat → Prop} {action : Exec α} (moves : Moves relation action)
    (implied : ∀ {first last}, relation first last → wider first last) : Moves wider action :=
  fun _ _ _ ran => implied (moves ran)

theorem bind_still {relation : Nat → Nat → Prop} {action : Exec α} {next : α → Exec β}
    (moves : Moves relation action) (still : ∀ value, Moves Eq (next value)) :
    Moves relation (action >>= next) := by
  intro machine final result ran
  obtain ⟨value, middle, first, rest⟩ := bind_ok ran
  rw [← still value rest]
  exact moves first

theorem enclosed (pair : Bracket) {action : Exec α} {next : α → Exec β}
    (moves : Moves script.Clear action) (still : ∀ value, Moves Eq (next value)) :
    Moves (script.Enclosed pair) (do
      expectSymbol script pair.openingMark
      let value ← action
      expectSymbol script pair.closingMark
      next value) := by
  intro machine final result ran
  obtain ⟨opened, ran⟩ := expectSymbol_bind_ok ran
  obtain ⟨value, middle, inside, ran⟩ := bind_ok ran
  obtain ⟨closed, ran⟩ := expectSymbol_bind_ok ran
  exact ⟨opened, middle.cursor, moves inside, closed, (still value ran).symm⟩

theorem separated (closing : Symbol) {item : Exec α} (moves : Moves script.Clear item) (fuel : Nat) :
    Moves script.Clear (Exec.separated script closing item fuel) := by
  induction fuel with
  | zero => exact fun _ _ _ ran => absurd ran throw_ne_ok
  | succ fuel ih =>
      intro machine final result ran
      have ran := currentKind_bind_ok ran
      split at ran
      · obtain ⟨-, rfl⟩ := pure_ok ran
        exact .refl _
      · obtain ⟨value, middle, read, ran⟩ := bind_ok ran
        obtain ⟨more, after, looked, rest⟩ := bind_ok ran
        rcases accept_ok (by simp) looked with ⟨rfl, comma, rfl⟩ | ⟨rfl, -, rfl⟩
        · obtain ⟨values, last, others, finished⟩ := bind_ok rest
          obtain ⟨-, rfl⟩ := pure_ok finished
          have passed : script.Clear middle.cursor (middle.cursor + 1) := .token (by rw [comma]; rfl)
          exact (moves read).trans (passed.trans (ih others))
        · obtain ⟨-, rfl⟩ := pure_ok rest
          exact moves read

end Moves

theorem stringLiteral_moves (fuel : Nat) :
    Moves (fun first last =>
      script.Clear first last ∧ (script.runEnd Kind.isStringPiece first).val = last)
      (stringLiteral script fuel) := by
  induction fuel with
  | zero => exact fun _ _ _ ran => absurd ran throw_ne_ok
  | succ fuel ih =>
      intro machine final result ran
      have ran := currentKind_bind_ok ran
      -- Either piece is one token, which the run of pieces takes in as well.
      have step (piece : (script.kindAt machine.cursor).isStringPiece = true)
          (proper : script.kindAt machine.cursor ≠ .endOfInput) {text : String}
          (others : stringLiteral script fuel { machine with cursor := machine.cursor + 1 } =
            .ok text final) :
          script.Clear machine.cursor final.cursor ∧
            (script.runEnd Kind.isStringPiece machine.cursor).val = final.cursor := by
        obtain ⟨clear, ended⟩ := ih others
        have passed : script.Clear machine.cursor (machine.cursor + 1) :=
          .token (Kind.isOrdinary_of_piece piece)
        exact ⟨passed.trans clear, (Script.runEnd_of_member proper piece).trans ended⟩
      generalize known : script.kindAt machine.cursor = kind at ran
      split at ran
      · have ran := advance_bind_ok (by rw [known]; simp) ran
        obtain ⟨text, last, others, finished⟩ := bind_ok ran
        obtain ⟨-, same⟩ := pure_ok finished
        rw [← same] at others
        exact step (by rw [known]; rfl) (by rw [known]; simp) others
      · have ran := advance_bind_ok (by rw [known]; simp) ran
        obtain ⟨value, afterValue, looked, ran⟩ := bind_ok ran
        obtain ⟨shown, afterShown, printing, ran⟩ := bind_ok ran
        obtain ⟨text, last, others, finished⟩ := bind_ok ran
        obtain ⟨-, same⟩ := pure_ok finished
        rw [(unchanged.printed value).ok printing, (unchanged.valueOf _).ok looked, ← same] at others
        exact step (by rw [known]; rfl) (by rw [known]; simp) others
      · obtain ⟨-, rfl⟩ := pure_ok ran
        refine ⟨.refl _, Script.runEnd_of_stop ?_⟩
        rw [known]
        cases kind <;> first | rfl | contradiction

theorem allocate_still (items : List Value) (type : Option DeclaredType) :
    Moves Eq (allocate items type) := by
  intro machine final result ran
  cases ran
  rfl

theorem checkedArray_moves (element : DeclaredType) {item : Exec Value}
    (moves : Moves script.Clear item) (fuel : Nat) :
    Moves (script.Enclosed .square) (checkedArray script element item fuel) := by
  have checked : Moves script.Clear (checkedArray.checked script element item) := by
    intro machine final result ran
    obtain ⟨value, middle, read, ran⟩ := bind_ok (current_bind_ok ran)
    obtain ⟨fits, same, tested, ran⟩ := bind_ok ran
    rw [← (unchanged.conforms value element).ok tested] at read
    split at ran
    · obtain ⟨-, rfl⟩ := pure_ok ran
      exact moves read
    · exact absurd ran bind_refuse_ne_ok
  exact .enclosed .square (.separated .rightBracket checked fuel) fun _ => allocate_still _ _

theorem declaredArray_moves (moves : Moves script.Clear evaluator.expression) (fuel : Nat)
    (base : String) (dimensions : Nat) :
    Moves (script.Enclosed .square) (declaredArray script evaluator fuel base dimensions) := by
  induction dimensions with
  | zero => exact checkedArray_moves _ moves fuel
  | succ dimensions ih =>
      refine checkedArray_moves _ ?_ fuel
      intro machine final result ran
      have ran := currentKind_bind_ok ran
      split at ran
      · exact (ih ran).clear
      · exact moves ran

theorem freeArray_moves (moves : Moves script.Clear evaluator.expression) (fuel : Nat) :
    Moves (script.Enclosed .square) (freeArray script evaluator fuel) := by
  refine .enclosed .square (.separated .rightBracket moves fuel) fun items => ?_
  intro machine final result ran
  have ran := get_bind_ok ran
  generalize sharedType _ = shared at ran
  cases shared with
  | ok element => exact allocate_still _ _ ran
  | error cause => exact absurd (current_bind_ok ran) refuse_ne_ok

/-- A call comes back to where it was made. -/
theorem invoke_still (function : Function) (arguments : List Value) (name : Token) (fuel : Nat) :
    Moves Eq (invoke evaluator function arguments name fuel) := by
  intro machine final result ran
  rw [invoke_eq] at ran
  obtain ⟨signal, middle, performed, ran⟩ := bind_ok ran
  obtain ⟨inside, -, returned⟩ := ensuring_ok performed
  rw [(unchanged.callResult function name signal).ok ran, returned]
  rfl

theorem call_moves (moves : Moves script.Clear evaluator.expression) (fuel : Nat) :
    Moves script.IsCall (call script evaluator fuel) := by
  intro machine final result ran
  obtain ⟨named, ran⟩ := expect_bind_ok (by simp) ran
  have argument : Moves script.Clear (do
      let token ← current script
      return (token, ← evaluator.expression)) := by
    intro machine final result ran
    obtain ⟨value, middle, read, ran⟩ := bind_ok (current_bind_ok ran)
    obtain ⟨-, rfl⟩ := pure_ok ran
    exact moves read
  refine ⟨named, Moves.enclosed .round (.separated .rightParen argument fuel) (fun given => ?_) ran⟩
  intro machine final result ran
  have ran := get_bind_ok ran
  generalize machine.functions.lookup? _ = found at ran
  cases found with
  | none => exact absurd ran refuse_ne_ok
  | some function =>
      dsimp only at ran
      split at ran
      · exact absurd ran refuse_ne_ok
      · obtain ⟨_, middle, checked, ran⟩ := bind_ok ran
        have ran := get_bind_ok ran
        rw [(unchanged.checkArguments _ _).ok checked] at ran
        split at ran
        · exact absurd ran refuse_ne_ok
        · exact invoke_still _ _ _ _ ran

theorem primary_moves (moves : Moves script.Clear evaluator.expression) {call : Exec Value}
    (called : Moves script.IsCall call) (fuel : Nat) : Moves script.Spans (primary script evaluator call fuel) := by
  intro machine final result ran
  have ran := current_bind_ok ran
  generalize known : (script.tokenAt machine.cursor).kind = kind at ran
  replace known : script.kindAt machine.cursor = kind := known
  -- The literals of one token are all read in the same way.
  have literal (proper : kind ≠ .endOfInput) (ordinary : kind.isOrdinary = true)
      (bare : kind.unary? = none)
      (operand : script.operandEnd machine.cursor = .ok ⟨machine.cursor + 1, Nat.lt_succ_self _⟩)
      {next : Exec Value} (still : Moves Eq next)
      (ran : (advance script >>= fun _ => next) machine = .ok result final) :
      script.Spans machine.cursor final.cursor := by
    have rest := advance_bind_ok (by rw [known]; exact proper) ran
    rw [← still rest]
    exact .literal operand (by rw [known]; exact bare) (by rw [known]; exact ordinary)
  have returned (value : Value) : Moves Eq (pure value : Exec Value) :=
    .of_unchanged (unchanged.pure value)
  split at ran
  · exact literal (by simp) rfl rfl (by rw [Script.operandEnd, known]) (returned _) ran
  · obtain ⟨text, middle, read, ran⟩ := bind_ok ran
    obtain ⟨-, rfl⟩ := pure_ok ran
    obtain ⟨clear, ended⟩ := stringLiteral_moves fuel read
    exact .pieces (by rw [known]; rfl) clear ended
  · obtain ⟨text, middle, read, ran⟩ := bind_ok ran
    obtain ⟨-, rfl⟩ := pure_ok ran
    obtain ⟨clear, ended⟩ := stringLiteral_moves fuel read
    exact .pieces (by rw [known]; rfl) clear ended
  · refine literal (by simp) rfl rfl (by rw [Script.operandEnd, known]) (.of_unchanged ?_) ran
    split
    · exact unchanged.refuse _ _
    · exact unchanged.pure _
  · exact literal (by simp) rfl rfl (by rw [Script.operandEnd, known]) (returned _) ran
  · exact literal (by simp) rfl rfl (by rw [Script.operandEnd, known]) (returned _) ran
  · obtain ⟨value, middle, read, ran⟩ := bind_ok (advance_bind_ok (by rw [known]; simp) ran)
    obtain ⟨closed, ran⟩ := expectSymbol_bind_ok ran
    obtain ⟨-, rfl⟩ := pure_ok ran
    exact .parenthesised ⟨known, middle.cursor, moves read, closed, rfl⟩
  · exact .array (freeArray_moves moves fuel ran)
  · have ran := followingKind_bind_ok ran
    by_cases calls : script.kindAt (machine.cursor + 1) = .symbol .leftParen
    · rw [if_pos calls] at ran
      exact .call (called ran)
    · rw [if_neg calls] at ran
      refine literal (by simp) rfl rfl ?_ (.of_unchanged (unchanged.valueOf _)) ran
      rw [Script.operandEnd, known]
      exact if_neg calls
  · obtain ⟨named, ran⟩ := expect_bind_ok (by simp) (advance_bind_ok (by rw [known]; simp) ran)
    rw [(unchanged.valueOf _).ok ran]
    exact .dollar known named
  · exact absurd ran refuse_ne_ok

theorem suffixes_moves (moves : Moves script.Clear evaluator.expression) (fuel : Nat)
    (value : Value) : Moves script.Continues (suffixes script evaluator fuel value) := by
  induction fuel generalizing value with
  | zero => exact fun _ _ _ ran => absurd ran throw_ne_ok
  | succ fuel ih =>
      intro machine final result ran
      have ran := currentKind_bind_ok ran
      generalize known : script.kindAt machine.cursor = kind at ran
      split at ran
      · have ran := current_bind_ok (advance_bind_ok (by rw [known]; simp) ran)
        obtain ⟨index, middle, read, ran⟩ := bind_ok ran
        obtain ⟨closed, ran⟩ := expectSymbol_bind_ok ran
        obtain ⟨element, same, selected, ran⟩ := bind_ok ran
        have indexed : script.Enclosed .square machine.cursor (middle.cursor + 1) :=
          ⟨known, middle.cursor, moves read, closed, rfl⟩
        have others := ih element ran
        rw [(unchanged.elementAt value index _).ok selected] at others
        exact (Script.Continues.index indexed).trans others
      · have ran := advance_bind_ok (by rw [known]; simp) ran
        obtain ⟨named, ran⟩ := expect_bind_ok (by simp) ran
        split at ran
        · exact absurd ran refuse_ne_ok
        · obtain ⟨length, same, measured, ran⟩ := bind_ok ran
          have others := ih length ran
          rw [(unchanged.lengthOf value _).ok measured] at others
          exact (Script.Continues.member known named).trans others
      · obtain ⟨-, rfl⟩ := pure_ok ran
        exact .refl _

theorem unary_moves (moves : Moves script.Clear evaluator.expression) {call : Exec Value}
    (called : Moves script.IsCall call) (fuel : Nat) : Moves script.Spans (unary script evaluator call fuel) := by
  induction fuel with
  | zero => exact fun _ _ _ ran => absurd ran throw_ne_ok
  | succ fuel ih =>
      intro machine final result ran
      have ran := current_bind_ok ran
      generalize known : (script.tokenAt machine.cursor).kind.unary? = found at ran
      replace known : (script.kindAt machine.cursor).unary? = found := known
      cases found with
      | some operator =>
          have proper : script.kindAt machine.cursor ≠ .endOfInput := by
            intro ended
            rw [ended] at known
            cases known
          obtain ⟨value, middle, read, applied⟩ := bind_ok (advance_bind_ok proper ran)
          rw [(unchanged.located _ _).ok applied]
          exact .prefixed (by rw [known]; rfl) (ih read)
      | none =>
          obtain ⟨value, middle, read, others⟩ := bind_ok ran
          exact (primary_moves moves called fuel read).continued (suffixes_moves moves fuel value others)

theorem chain_moves (rank : Rank) {operand : Exec Value} (moves : Moves script.Spans operand)
    (fuel : Nat) (left : Value) : Moves script.Continues (chain script rank operand fuel left) := by
  induction fuel generalizing left with
  | zero => exact fun _ _ _ ran => absurd ran throw_ne_ok
  | succ fuel ih =>
      intro machine final result ran
      have ran := current_bind_ok ran
      generalize known : (script.tokenAt machine.cursor).kind.binaryOf? rank = found at ran
      cases found with
      | some operator =>
          have joins : (script.kindAt machine.cursor).binary?.isSome = true :=
            binary_of_binaryOf known
          obtain ⟨right, middle, read, ran⟩ := bind_ok (advance_bind_ok (Script.kindAt_ne_of_binary joins) ran)
          obtain ⟨value, same, applied, ran⟩ := bind_ok ran
          have others := ih value ran
          rw [(unchanged.applyBinary _ operator left right).ok applied] at others
          exact (Script.Continues.joined joins (moves read)).trans others
      | none =>
          obtain ⟨-, rfl⟩ := pure_ok ran
          exact .refl _

theorem ranked_moves (rank : Rank) {operand : Exec Value} (moves : Moves script.Spans operand)
    (fuel : Nat) : Moves script.Spans (ranked script rank operand fuel) := by
  intro machine final result ran
  obtain ⟨left, middle, read, others⟩ := bind_ok ran
  exact (moves read).continued (chain_moves rank moves fuel left others)

theorem typeTests_moves (fuel : Nat) (value : Value) :
    Moves script.Continues (typeTests script fuel value) := by
  induction fuel generalizing value with
  | zero => exact fun _ _ _ ran => absurd ran throw_ne_ok
  | succ fuel ih =>
      intro machine final result ran
      have ran := currentKind_bind_ok ran
      by_cases asked : script.kindAt machine.cursor = .keyword .isWord ∨
          script.kindAt machine.cursor = .keyword .asWord
      · rw [if_pos asked] at ran
        have proper : script.kindAt machine.cursor ≠ .endOfInput := by
          rcases asked with asked | asked <;> rw [asked] <;> simp
        have ran := current_bind_ok (advance_bind_ok proper ran)
        by_cases type : (script.kindAt (machine.cursor + 1)).isType = true
        · have properType : script.kindAt (machine.cursor + 1) ≠ .endOfInput := by
            intro ended
            rw [ended] at type
            cases type
          rw [if_pos (show (script.tokenAt (machine.cursor + 1)).kind.isType = true from type)] at ran
          obtain ⟨answer, same, tested, ran⟩ := bind_ok (advance_bind_ok properType ran)
          have others := ih answer ran
          rw [(unchanged.testOrConvert _ value _).ok tested] at others
          exact (Script.Continues.typed asked type).trans others
        · rw [if_neg (show ¬ (script.tokenAt (machine.cursor + 1)).kind.isType = true from type)] at ran
          exact absurd ran refuse_ne_ok
      · rw [if_neg asked] at ran
        obtain ⟨-, rfl⟩ := pure_ok ran
        exact .refl _

theorem comparison_moves (moves : Moves script.Clear evaluator.expression) {call : Exec Value}
    (called : Moves script.IsCall call) (fuel : Nat) :
    Moves script.Spans (comparison script evaluator call fuel) := by
  have operand : Moves script.Spans (typeTest script evaluator call fuel) := by
    intro machine final result ran
    obtain ⟨value, middle, read, others⟩ := bind_ok ran
    have sum : Moves script.Spans (additive script evaluator call fuel) :=
      ranked_moves .sum (ranked_moves .product (unary_moves moves called fuel) fuel) fuel
    exact (sum read).continued (typeTests_moves fuel value others)
  intro machine final result ran
  obtain ⟨left, middle, read, ran⟩ := bind_ok ran
  have ran := current_bind_ok ran
  generalize known : (script.tokenAt middle.cursor).kind.binaryOf? .comparison = found at ran
  cases found with
  | some operator =>
      have joins : (script.kindAt middle.cursor).binary?.isSome = true :=
        binary_of_binaryOf known
      obtain ⟨right, last, others, applied⟩ := bind_ok (advance_bind_ok (Script.kindAt_ne_of_binary joins) ran)
      rw [(unchanged.applyBinary _ operator left right).ok applied]
      exact (operand read).continued (.joined joins (operand others))
  | none =>
      obtain ⟨-, rfl⟩ := pure_ok ran
      exact operand read

/-- An expression that was evaluated is passed over alike. Calls inside it may execute anything: they
come back to where they were made. -/
theorem expression_moves (script : Script) (verbosity fuel : Nat) :
    Moves script.Spans (expression script verbosity fuel) := by
  induction fuel with
  | zero => exact fun _ _ _ ran => absurd ran throw_ne_ok
  | succ fuel ih =>
      have moves : Moves script.Clear (Exec.evaluator script verbosity fuel).expression :=
        ih.weaken fun spans => spans.clear
      have compared : Moves script.Spans (comparison script (Exec.evaluator script verbosity fuel)
          (call script (Exec.evaluator script verbosity fuel) fuel) fuel) :=
        comparison_moves moves (call_moves moves fuel) fuel
      exact ranked_moves .disjunction (ranked_moves .conjunction compared fuel) fuel

end Exec

end Onepass
