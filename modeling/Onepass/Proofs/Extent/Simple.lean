import Onepass.Proofs.Extent.Course
import Onepass.Proofs.Extent.Expression

/-! # Where simple statements end

Print statements, calls, declarations and assignments are read token by token when they are executed,
and end where they end when passed over. The header of a function is read in both cases up to the
first opening brace.
-/

set_option autoImplicit false

namespace Onepass.Exec

variable {α : Type} {script : Script} {evaluator : Evaluator}

/-- A simple statement without the semicolon that may follow it. -/
structure Unterminated (script : Script) (running : Option DeclaredType) (first last : Nat) : Prop where
  transparent : script.Transparent .curly first last
  ends : script.Stops last → Script.Reaches (script.unterminatedEnd running) first last

/-- The semicolon that may follow a simple statement is read as it is passed over. -/
theorem simple_executed {action : Exec Unit} {running : Option DeclaredType} {machine final : Machine}
    {signal : Signal} (plain : (script.kindAt machine.cursor).isCompound = false)
    (proper : script.kindAt machine.cursor ≠ .symbol .semicolon)
    (performs : ∀ {middle result}, action machine = .ok result middle →
      Unterminated script running machine.cursor middle.cursor)
    (ran : simple script action machine = .ok signal final) :
    script.Executed running machine.cursor final.cursor := by
  obtain ⟨_, middle, performed, ran⟩ := bind_ok ran
  rw [bind_of_ok (acceptSemicolon_eq script middle)] at ran
  obtain ⟨-, rfl⟩ := pure_ok ran
  obtain ⟨transparent, reaches⟩ := performs performed
  dsimp only
  by_cases ended : script.kindAt middle.cursor = .symbol .semicolon
  · rw [if_pos ended]
    refine .simple plain (transparent.trans (Script.Clear.token (by rw [ended]; rfl) .curly))
      fun _ => (Script.reaches_statementEnd_iff proper).mpr ⟨middle.cursor, reaches ?_, (if_pos ended).symm⟩
    rw [Script.Stops, ended]
    rfl
  · rw [if_neg ended]
    exact .simple plain transparent fun stops => (Script.reaches_statementEnd_iff proper).mpr
      ⟨middle.cursor, reaches stops, (if_neg ended).symm⟩

/-! ## Printing and calls -/

theorem printedValues_moves (moves : Moves script.Clear evaluator.expression) (fuel : Nat) :
    Moves script.Clear (printedValues script evaluator fuel) := by
  induction fuel with
  | zero => exact fun _ _ _ ran => absurd ran throw_ne_ok
  | succ fuel ih =>
      intro machine final result ran
      have ran := currentKind_bind_ok ran
      generalize known : script.kindAt machine.cursor = kind at ran
      split at ran
      · obtain ⟨-, rfl⟩ := pure_ok ran
        exact .refl _
      · exact absurd (current_bind_ok ran) refuse_ne_ok
      · obtain ⟨value, middle, read, ran⟩ := bind_ok ran
        obtain ⟨text, same, shown, ran⟩ := bind_ok ran
        rw [(unchanged.printed value).ok shown] at ran
        obtain ⟨comma, after, looked, rest⟩ := bind_ok ran
        obtain ⟨texts, last, others, finished⟩ := bind_ok rest
        obtain ⟨-, rfl⟩ := pure_ok finished
        rcases accept_ok (by simp) looked with ⟨-, there, rfl⟩ | ⟨-, -, rfl⟩
        · have passed : script.Clear middle.cursor (middle.cursor + 1) := .token (by rw [there]; rfl)
          exact (moves read).trans (passed.trans (ih others))
        · exact (moves read).trans (ih others)

theorem printValues_moves (moves : Moves script.Clear evaluator.expression) (fuel : Nat)
    {machine final : Machine} {result : Unit}
    (proper : script.kindAt machine.cursor ≠ .endOfInput)
    (ran : printValues script evaluator fuel machine = .ok result final) :
    script.Enclosed .round (machine.cursor + 1) final.cursor := by
  have ran := advance_bind_ok proper ran
  exact Moves.enclosed .round (printedValues_moves moves fuel)
    (fun _ _ _ _ ran => by cases ran; rfl) ran

/-! ## Declarations and assignments -/

theorem readType_ok {machine final : Machine} {type : DeclaredType}
    (ran : readType script machine = .ok type final) :
    script.typeAt machine.cursor = .ok type ∧ final = { machine with cursor := machine.cursor + 1 } := by
  have ran := get_bind_ok ran
  cases found : script.typeAt machine.cursor with
  | error diagnostic =>
      rw [found] at ran
      cases ran
  | ok named =>
      rw [found] at ran
      have proper : script.kindAt machine.cursor ≠ .endOfInput := by
        intro ended
        have type := Script.typeAt_ok found
        rw [ended] at type
        cases type
      have finished := advance_bind_ok proper ran
      cases finished
      exact ⟨rfl, rfl⟩

theorem initializer_moves (moves : Moves script.Spans evaluator.expression) (type : DeclaredType)
    (fuel : Nat) : Moves script.Spans (initializer script evaluator type fuel) := by
  unfold initializer
  split
  · exact moves
  · intro machine final result ran
    have ran := currentKind_bind_ok ran
    split at ran
    · have enclosed := declaredArray_moves (moves.weaken fun spans => spans.clear) fuel _ _ ran
      exact .array enclosed
    · exact moves ran

theorem adopt_still (value : Value) (expected : Option DeclaredType) (position : Position) :
    Moves Eq (adopt value expected position) := by
  intro machine final result ran
  cases expected with
  | none => cases ran; rfl
  | some type =>
      obtain ⟨_, middle, checked, ran⟩ := bind_ok ran
      rw [← (unchanged.checkAssigned value type position).ok checked]
      cases ran
      rfl

theorem declaredVariable_moves (moves : Moves script.Spans evaluator.expression) (fuel : Nat)
    {machine final : Machine} {result : Token × Binding}
    (ran : declaredVariable script evaluator fuel machine = .ok result final) :
    script.Clear machine.cursor final.cursor ∧
      (script.Stops final.cursor →
        Script.Reaches script.declarationEnd machine.cursor final.cursor) := by
  obtain ⟨constant, start, dollar, ran⟩ := bind_ok ran
  obtain ⟨named, ran⟩ := expect_bind_ok (by simp) ran
  obtain ⟨-, ran⟩ := guarded_ok (get_bind_ok ran)
  obtain ⟨colon, ran⟩ := expectSymbol_bind_ok ran
  obtain ⟨type, afterType, read, rest⟩ := bind_ok ran
  obtain ⟨known, rfl⟩ := readType_ok read
  obtain ⟨-, rest⟩ := guarded_ok rest
  obtain ⟨equal, rest⟩ := expectSymbol_bind_ok rest
  obtain ⟨value, afterValue, evaluated, rest⟩ := bind_ok (current_bind_ok rest)
  obtain ⟨_, adopted, adoption, finished⟩ := bind_ok rest
  obtain ⟨-, rfl⟩ := pure_ok finished
  rw [← adopt_still _ _ _ adoption]
  have spans : script.Spans (start.cursor + 4) afterValue.cursor :=
    initializer_moves moves type fuel evaluated
  have clear : script.Clear start.cursor afterValue.cursor :=
    (Script.Clear.token (by rw [named]; rfl))
      |>.trans (.token (by rw [colon]; rfl))
      |>.trans (.token (Kind.isOrdinary_of_type (Script.typeAt_ok known)))
      |>.trans (.token (by rw [equal]; rfl))
      |>.trans spans.clear
  have reaches (stops : script.Stops afterValue.cursor) :
      Script.Reaches script.namedDeclarationEnd start.cursor afterValue.cursor :=
    Script.reaches_namedDeclarationEnd named colon known equal (spans.reaches stops)
  rcases accept_ok (by simp) dollar with ⟨-, there, rfl⟩ | ⟨-, absent, rfl⟩
  · exact ⟨(Script.Clear.token (by rw [there]; rfl)).trans clear, fun stops =>
      Script.reaches_declarationEnd_of_dollar there (reaches stops)⟩
  · exact ⟨clear, fun stops => Script.reaches_declarationEnd_of_name absent (reaches stops)⟩

theorem variableDeclaration_moves (moves : Moves script.Spans evaluator.expression) (fuel : Nat)
    {machine final : Machine} {result : Unit}
    (ran : variableDeclaration script evaluator fuel machine = .ok result final) :
    script.Clear machine.cursor final.cursor ∧
      (script.Stops final.cursor →
        Script.Reaches script.declarationEnd machine.cursor final.cursor) := by
  obtain ⟨declared, middle, read, rest⟩ := bind_ok ran
  have moved := declaredVariable_moves moves fuel read
  cases rest
  exact moved

theorem indices_moves (moves : Moves script.Clear evaluator.expression) (fuel : Nat) :
    Moves (fun first last => script.Clear first last ∧
      Script.Reaches (Script.assignmentEnd.indicesEnd script) first last)
      (indices script evaluator fuel) := by
  induction fuel with
  | zero => exact fun _ _ _ ran => absurd ran throw_ne_ok
  | succ fuel ih =>
      intro machine final result ran
      have ran := currentKind_bind_ok ran
      by_cases indexed : script.kindAt machine.cursor = .symbol .leftBracket
      · rw [if_pos indexed] at ran
        have ran := current_bind_ok (advance_bind_ok (by rw [indexed]; simp) ran)
        obtain ⟨index, middle, read, ran⟩ := bind_ok ran
        obtain ⟨closed, ran⟩ := expectSymbol_bind_ok ran
        obtain ⟨others, last, more, finished⟩ := bind_ok ran
        obtain ⟨-, rfl⟩ := pure_ok finished
        have enclosed : script.Enclosed .square machine.cursor (middle.cursor + 1) :=
          ⟨indexed, middle.cursor, moves read, closed, rfl⟩
        obtain ⟨clear, reached⟩ := ih more
        exact ⟨enclosed.clear.trans clear, Script.reaches_indices indexed enclosed.reaches reached⟩
      · rw [if_neg indexed] at ran
        obtain ⟨-, rfl⟩ := pure_ok ran
        exact ⟨.refl _, Script.reaches_noIndices indexed⟩

theorem assignedValue_still {operator : Token} (steps : operator.kind.isStep = true) (old : Value) :
    Moves Eq (assignedValue evaluator operator old) := by
  refine .of_unchanged ?_
  unfold assignedValue
  generalize operator.kind = kind at steps
  split
  · exact unchanged.applyBinary _ _ _ _
  · exact unchanged.applyBinary _ _ _ _
  case _ mark notUp notDown => cases mark <;> contradiction
  case _ noSymbol => cases kind <;> first | cases steps | exact absurd rfl (noSymbol _)

theorem assignedValue_moves (moves : Moves script.Spans evaluator.expression) {operator : Token}
    (noStep : operator.kind.isStep = false) (old : Value) :
    Moves script.Spans (assignedValue evaluator operator old) := by
  unfold assignedValue
  generalize operator.kind = kind at noStep
  split
  · cases noStep
  · cases noStep
  · split
    · exact moves.bind_still fun _ => .of_unchanged (unchanged.applyBinary _ _ _ _)
    · exact moves
  · exact moves

theorem operator_cases {kind : Kind} (assigns : ¬ (!kind.isAssignment && !kind.isStep) = true) :
    kind.isStep = true ∨ kind.isStep = false ∧ kind.isAssignment = true := by
  revert assigns
  cases kind.isAssignment <;> cases kind.isStep <;> simp

/-- The cursor stands still while the target of an assignment is found. -/
theorem preparedAssignment_moves (moves : Moves script.Spans evaluator.expression) (fuel : Nat)
    {machine final : Machine} {result : Token × Target × Value}
    (named : script.kindAt machine.cursor = .identifier)
    (ran : preparedAssignment script evaluator fuel machine = .ok result final) :
    script.Clear machine.cursor final.cursor ∧
      (script.Stops final.cursor →
        Script.Reaches script.assignmentEnd machine.cursor final.cursor) := by
  have ran := advance_bind_ok (by rw [named]; simp) ran
  obtain ⟨before, same, found, ran⟩ := bind_ok ran
  rw [(unchanged.bindingOf _).ok found] at ran
  obtain ⟨selected, target, indexed, ran⟩ := bind_ok ran
  have ran := current_bind_ok ran
  obtain ⟨assigns, ran⟩ := guarded_ok ran
  have operator : (script.kindAt target.cursor).isStep = true ∨
      (script.kindAt target.cursor).isStep = false ∧
        (script.kindAt target.cursor).isAssignment = true :=
    operator_cases assigns
  have ordinary : (script.kindAt target.cursor).isOrdinary = true := by
    rcases operator with steps | ⟨-, assigns⟩
    · exact Kind.isOrdinary_of_step steps
    · exact Kind.isOrdinary_of_assignment assigns
  have ran := advance_bind_ok (Script.kindAt_ne_of_ordinary ordinary) ran
  obtain ⟨binding, same, found, ran⟩ := bind_ok ran
  rw [(unchanged.bindingOf _).ok found] at ran
  obtain ⟨-, ran⟩ := guarded_ok ran
  obtain ⟨place, same, chosen, ran⟩ := bind_ok ran
  rw [(unchanged.selectElement _ _ _).ok chosen] at ran
  have ran := current_bind_ok ran
  obtain ⟨old, same, looked, ran⟩ := bind_ok ran
  rw [(unchanged.targetValue _ _).ok looked] at ran
  obtain ⟨value, afterValue, evaluated, ran⟩ := bind_ok ran
  obtain ⟨_, adopted, adoption, finished⟩ := bind_ok (get_bind_ok ran)
  obtain ⟨-, rfl⟩ := pure_ok finished
  rw [← adopt_still _ _ _ adoption]
  obtain ⟨clear, reached⟩ := indices_moves (moves.weaken fun spans => spans.clear) fuel indexed
  have begun : script.Clear machine.cursor (target.cursor + 1) :=
    (Script.Clear.token (by rw [named]; rfl)).trans (clear.trans (.token ordinary))
  rcases operator with steps | ⟨noStep, assigns⟩
  · rw [← assignedValue_still steps _ evaluated]
    exact ⟨begun, fun _ => Script.reaches_assignmentEnd_of_step reached steps⟩
  · have spans := assignedValue_moves moves noStep _ evaluated
    exact ⟨begun.trans spans.clear, fun stops =>
      Script.reaches_assignmentEnd_of_value reached noStep assigns (spans.reaches stops)⟩

theorem assignment_moves (moves : Moves script.Spans evaluator.expression) (fuel : Nat)
    {machine final : Machine} {result : Unit}
    (named : script.kindAt machine.cursor = .identifier)
    (ran : assignment script evaluator fuel machine = .ok result final) :
    script.Clear machine.cursor final.cursor ∧
      (script.Stops final.cursor →
        Script.Reaches script.assignmentEnd machine.cursor final.cursor) := by
  obtain ⟨⟨name, target, value⟩, middle, prepared, stored⟩ := bind_ok ran
  have moved := preparedAssignment_moves moves fuel named prepared
  cases target <;> cases stored <;> exact moved

/-! ## Functions -/

/-- The brace that a header leads to is the same from both places. -/
def SameBrace (script : Script) (first last : Nat) : Prop :=
  (script.runEnd (· != .symbol .leftBrace) first).val =
    (script.runEnd (· != .symbol .leftBrace) last).val

theorem SameBrace.token {place : Nat} (ordinary : (script.kindAt place).isOrdinary = true ∨
      script.kindAt place = .symbol .leftParen ∨ script.kindAt place = .symbol .rightParen) :
    SameBrace script place (place + 1) := by
  refine Script.runEnd_of_member ?_ ?_
  · rcases ordinary with ordinary | there | there
    · exact Script.kindAt_ne_of_ordinary ordinary
    · simp [there]
    · simp [there]
  · rcases ordinary with ordinary | there | there
    · simp only [bne_iff_ne]
      intro brace
      rw [brace] at ordinary
      cases ordinary
    · rw [there]
      rfl
    · rw [there]
      rfl

theorem optionalType_moves : Moves (SameBrace script) (parameters.optionalType script) := by
  intro machine final result ran
  obtain ⟨typed, middle, looked, rest⟩ := bind_ok ran
  rcases accept_ok (by simp) looked with ⟨rfl, colon, rfl⟩ | ⟨rfl, -, rfl⟩
  · obtain ⟨type, after, read, finished⟩ := bind_ok rest
    obtain ⟨known, rfl⟩ := readType_ok read
    obtain ⟨-, rfl⟩ := pure_ok finished
    exact (SameBrace.token (.inl (by rw [colon]; rfl))).trans
      (SameBrace.token (.inl (Kind.isOrdinary_of_type (Script.typeAt_ok known))))
  · obtain ⟨-, rfl⟩ := pure_ok rest
    rfl

theorem parameters_moves (function : String) (known : List Parameter) (fuel : Nat) :
    Moves (SameBrace script) (parameters script function known fuel) := by
  induction fuel generalizing known with
  | zero => exact fun _ _ _ ran => absurd ran throw_ne_ok
  | succ fuel ih =>
      intro machine final result ran
      have ran := currentKind_bind_ok ran
      split at ran
      · obtain ⟨-, rfl⟩ := pure_ok ran
        rfl
      · obtain ⟨named, ran⟩ := expect_bind_ok (by simp) ran
        obtain ⟨-, ran⟩ := guarded_ok ran
        obtain ⟨type, middle, read, ran⟩ := bind_ok ran
        have begun : SameBrace script machine.cursor middle.cursor :=
          (SameBrace.token (.inl (by rw [named]; rfl))).trans (optionalType_moves read)
        obtain ⟨more, after, looked, rest⟩ := bind_ok ran
        rcases accept_ok (by simp) looked with ⟨rfl, comma, rfl⟩ | ⟨rfl, -, rfl⟩
        · have passed : SameBrace script middle.cursor (middle.cursor + 1) :=
            .token (.inl (by rw [comma]; rfl))
          exact begun.trans (passed.trans (ih _ rest))
        · obtain ⟨-, rfl⟩ := pure_ok rest
          exact begun

/-- The part that an action passes over is the one that the script says. -/
theorem passOver_ok {partEnd : (place : Nat) → Except Diagnostic (Ahead place)}
    {machine final : Machine} {result : Unit} (ran : passOver partEnd machine = .ok result final) :
    Script.Reaches partEnd machine.cursor final.cursor ∧
      final = { machine with cursor := final.cursor } := by
  have ran := get_bind_ok ran
  cases found : partEnd machine.cursor with
  | error diagnostic =>
      rw [found] at ran
      cases ran
  | ok next =>
      rw [found] at ran
      cases ran
      exact ⟨Script.reaches_of_ok found, rfl⟩

theorem register_still (function : Function) (position : Position) :
    Moves Eq (register function position) := by
  intro machine final result ran
  have ran := get_bind_ok ran
  split at ran
  · obtain ⟨-, rfl⟩ := pure_ok ran
    rfl
  · generalize FunctionTable.register? _ _ = extended at ran
    cases extended with
    | some functions => cases ran; rfl
    | none => exact absurd ran refuse_ne_ok

theorem functionDeclaration_moves (fuel : Nat) {machine final : Machine} {result : Unit}
    (ran : functionDeclaration script fuel machine = .ok result final) :
    Script.Reaches script.bracesEnd (script.runEnd (· != .symbol .leftBrace) machine.cursor).val
      final.cursor := by
  obtain ⟨begun, ran⟩ := expect_bind_ok (by simp) ran
  obtain ⟨named, ran⟩ := expect_bind_ok (by simp) ran
  obtain ⟨opened, ran⟩ := expectSymbol_bind_ok ran
  obtain ⟨signature, inside, listed, ran⟩ := bind_ok ran
  obtain ⟨closed, ran⟩ := expectSymbol_bind_ok ran
  obtain ⟨type, brace, read, ran⟩ := bind_ok ran
  have ran := currentKind_bind_ok ran
  by_cases there : script.kindAt brace.cursor = .symbol .leftBrace
  · rw [if_neg (not_not_intro there)] at ran
    have ran := get_bind_ok ran
    obtain ⟨_, after, passed, ran⟩ := bind_ok ran
    have ran := get_bind_ok ran
    rw [← register_still _ _ ran]
    have header : SameBrace script machine.cursor brace.cursor :=
      (SameBrace.token (.inl (by rw [begun]; rfl)))
        |>.trans (SameBrace.token (.inl (by rw [named]; rfl)))
        |>.trans (SameBrace.token (.inr (.inl opened)))
        |>.trans (parameters_moves _ _ fuel listed)
        |>.trans (SameBrace.token (.inr (.inr closed)))
        |>.trans (optionalType_moves read)
    rw [header, Script.runEnd_of_stop (by rw [there]; rfl)]
    exact (passOver_ok passed).1
  · rw [if_pos there] at ran
    obtain ⟨_, _, refused, _⟩ := bind_ok ran
    exact absurd (current_bind_ok refused) refuse_ne_ok

/-! ## All simple statements -/

variable {running : Option DeclaredType} {fuel : Nat} {machine final : Machine}

theorem Unterminated.of_parentheses {first last : Nat}
    (ordinary : (script.kindAt first).isOrdinary = true)
    (enclosed : script.Enclosed .round (first + 1) last)
    (parts : script.unterminatedEnd running first = (do
      let arguments ← script.parenthesesEnd (first + 1)
      return ⟨arguments.val, Nat.lt_of_succ_lt arguments.property⟩)) :
    Unterminated script running first last := by
  have reached : Script.Reaches script.parenthesesEnd (first + 1) last := enclosed.reaches
  refine ⟨((Script.Clear.token ordinary).trans enclosed.clear) .curly, fun _ => ?_⟩
  rw [Script.Reaches, parts]
  exact Script.Finds.weaken reached

theorem printValues_unterminated (moves : Moves script.Clear evaluator.expression)
    (begun : script.kindAt machine.cursor = .keyword .printWord ∨
      script.kindAt machine.cursor = .keyword .printlnWord) {result : Unit}
    (ran : printValues script evaluator fuel machine = .ok result final) :
    Unterminated script running machine.cursor final.cursor := by
  have ordinary : (script.kindAt machine.cursor).isOrdinary = true := by
    rcases begun with begun | begun <;> rw [begun] <;> rfl
  refine .of_parentheses ordinary
    (printValues_moves moves fuel (Script.kindAt_ne_of_ordinary ordinary) ran)
    (Script.unterminatedEnd_of_print begun)

theorem functionDeclaration_unterminated (headers : script.ClearHeaders)
    (begun : script.kindAt machine.cursor = .keyword .funcWord) {result : Unit}
    (ran : functionDeclaration script fuel machine = .ok result final) :
    Unterminated script running machine.cursor final.cursor := by
  have reached := functionDeclaration_moves fuel ran
  refine ⟨(Script.transparent_of_function headers begun).trans (.balanced reached), fun _ => ?_⟩
  rw [Script.Reaches, Script.unterminatedEnd_of_function begun]
  exact Script.Finds.weaken reached

theorem namedStatement_unterminated (moves : Moves script.Spans evaluator.expression)
    (named : script.kindAt machine.cursor = .identifier) {result : Unit}
    (ran : namedStatement script evaluator fuel machine = .ok result final) :
    Unterminated script running machine.cursor final.cursor := by
  have ran := followingKind_bind_ok ran
  have parts := Script.unterminatedEnd_of_identifier running named
  by_cases declares : script.kindAt (machine.cursor + 1) = .symbol .colon
  · rw [if_pos declares] at ran
    obtain ⟨clear, reaches⟩ := variableDeclaration_moves moves fuel ran
    refine ⟨clear .curly, fun stops => ?_⟩
    rw [Script.Reaches, parts, if_pos declares]
    exact reaches stops
  · rw [if_neg declares] at ran parts
    by_cases calls : script.kindAt (machine.cursor + 1) = .symbol .leftParen
    · rw [if_pos calls] at ran parts
      obtain ⟨value, middle, called, rest⟩ := bind_ok ran
      obtain ⟨-, rfl⟩ := pure_ok rest
      obtain ⟨-, enclosed⟩ := call_moves (moves.weaken fun spans => spans.clear) fuel called
      exact .of_parentheses (by rw [named]; rfl) enclosed parts
    · rw [if_neg calls] at ran parts
      split at ran
      · obtain ⟨clear, reaches⟩ := assignment_moves moves fuel named ran
        refine ⟨clear .curly, fun stops => ?_⟩
        rw [Script.Reaches, parts]
        exact reaches stops
      · exact absurd (current_bind_ok ran) refuse_ne_ok

theorem constant_unterminated (moves : Moves script.Spans evaluator.expression)
    (begun : script.kindAt machine.cursor = .symbol .dollar) {result : Unit}
    (ran : variableDeclaration script evaluator fuel machine = .ok result final) :
    Unterminated script running machine.cursor final.cursor := by
  obtain ⟨clear, reaches⟩ := variableDeclaration_moves moves fuel ran
  refine ⟨clear .curly, fun stops => ?_⟩
  rw [Script.Reaches, Script.unterminatedEnd_of_dollar begun]
  exact reaches stops

theorem empty_executed (begun : script.kindAt machine.cursor = .symbol .semicolon) {signal : Signal}
    (ran : simple script (pure ()) machine = .ok signal final) :
    script.Executed running machine.cursor final.cursor := by
  obtain ⟨_, middle, performed, rest⟩ := bind_ok ran
  obtain ⟨-, rfl⟩ := pure_ok performed
  rw [bind_of_ok (acceptSemicolon_eq script _), if_pos begun] at rest
  obtain ⟨-, rfl⟩ := pure_ok rest
  refine .simple (by rw [begun]; rfl) (Script.Clear.token (by rw [begun]; rfl) .curly) fun _ => ?_
  refine ⟨Nat.lt_succ_self _, ?_⟩
  rw [Script.statementEnd, if_pos begun]

end Onepass.Exec
