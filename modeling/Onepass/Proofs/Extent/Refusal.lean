import Onepass.Script.Extent

/-! # What is refused in passing

Where a part of a script ends is found by looking at its tokens, and a look that fails blames one of
them: its diagnostic has the position of a token or of the end of the script. This holds of every single
part, and so of whatever is passed over.
-/

set_option autoImplicit false

namespace Onepass.Script

variable {script : Script} {α β : Type}

/-- Some token of the script, or its end, stands at the position. -/
def Marks (script : Script) (position : Position) : Prop :=
  ∃ place, (script.tokenAt place).position = position

/-- If the look at the script fails, its diagnostic stands at a token. -/
def Blames (script : Script) (result : Except Diagnostic α) : Prop :=
  ∀ diagnostic, result = .error diagnostic → script.Marks diagnostic.position

namespace Blames

theorem ok (value : α) : script.Blames (.ok value) := by
  intro diagnostic refused
  cases refused

theorem fault (cause : Cause) (place : Nat) :
    script.Blames (.error (script.fault cause place) : Except Diagnostic α) := by
  intro diagnostic refused
  cases refused
  exact ⟨place, rfl⟩

theorem bind {result : Except Diagnostic α} {next : α → Except Diagnostic β}
    (first : script.Blames result) (rest : ∀ value, script.Blames (next value)) :
    script.Blames (result >>= next) := by
  intro diagnostic refused
  cases result with
  | ok value => exact rest value diagnostic refused
  | error other =>
      cases refused
      exact first _ rfl

theorem map {result : Except Diagnostic α} (first : script.Blames result) (next : α → β) :
    script.Blames (result.map next) := by
  intro diagnostic refused
  cases result with
  | ok value => cases refused
  | error other =>
      cases refused
      exact first _ rfl

/-! ## Tokens and brackets -/

theorem tokenEnd (kind : Kind) (place : Nat) : script.Blames (script.tokenEnd kind place) := by
  unfold Script.tokenEnd
  split
  · exact .ok _
  · exact .fault _ _

theorem typeAt (place : Nat) : script.Blames (script.typeAt place) := by
  unfold Script.typeAt
  dsimp only
  split
  · split
    · exact .ok _
    · exact .fault _ _
  · exact .fault _ _

theorem nestedEnd (opening closing : Kind) (depth place : Nat) :
    script.Blames (script.nestedEnd opening closing depth place) := by
  fun_induction Script.nestedEnd script opening closing depth place with
  | case1 => exact .ok _
  | case2 => exact .fault _ _
  | case3 place outer proper deeper ih => exact .map ih _

theorem balancedEnd (opening closing : Kind) (place : Nat) :
    script.Blames (script.balancedEnd opening closing place) :=
  .bind (.tokenEnd opening place) fun inside =>
    .bind (.nestedEnd opening closing 1 inside.val) fun _ => .ok _

theorem parenthesesEnd (place : Nat) : script.Blames (script.parenthesesEnd place) :=
  .balancedEnd _ _ place

theorem bracketsEnd (place : Nat) : script.Blames (script.bracketsEnd place) :=
  .balancedEnd _ _ place

theorem bracesEnd (place : Nat) : script.Blames (script.bracesEnd place) :=
  .balancedEnd _ _ place

/-! ## Expressions -/

theorem operandEnd (place : Nat) : script.Blames (script.operandEnd place) := by
  unfold Script.operandEnd
  dsimp only
  split
  · exact .ok _
  · exact .ok _
  · exact .ok _
  · exact .ok _
  · exact .ok _
  · exact .ok _
  · exact .parenthesesEnd place
  · exact .bracketsEnd place
  · split
    · exact .map (.parenthesesEnd _) _
    · exact .ok _
  · exact .map (.tokenEnd _ _) _
  · exact .fault _ place

theorem suffixEnd {place : Nat} {result : Except Diagnostic (Ahead place)}
    (follows : script.suffixEnd? place = some result) : script.Blames result := by
  unfold Script.suffixEnd? at follows
  split at follows
  · cases follows
    exact .bracketsEnd place
  · cases follows
    exact .map (.tokenEnd _ _) _
  · split at follows
    · cases follows
      exact .ok _
    · cases follows
      exact .fault _ _
  · split at follows
    · cases follows
      exact .ok _
    · cases follows
      exact .fault _ _
  · cases follows

theorem suffixesEnd (place : Nat) : script.Blames (script.suffixesEnd place) := by
  fun_induction Script.suffixesEnd script place with
  | case1 => exact .ok _
  | case2 place result follows ih =>
      exact .bind (.suffixEnd follows) fun next => .bind (ih next) fun _ => .ok _

theorem expressionEnd (place : Nat) : script.Blames (script.expressionEnd place) := by
  fun_induction Script.expressionEnd script place with
  | case1 place operand ih =>
      refine .bind (.operandEnd operand.val) fun primary => ?_
      refine .bind (.suffixesEnd primary.val) fun finish => ?_
      dsimp only
      split
      case _ joined => exact .bind (ih primary finish joined) fun _ => .ok _
      case _ => exact .ok _

/-! ## Statements -/

theorem namedDeclarationEnd (place : Nat) : script.Blames (script.namedDeclarationEnd place) :=
  .bind (.tokenEnd _ place) fun name =>
    .bind (.tokenEnd _ name.val) fun colon =>
      .bind (.typeAt colon.val) fun _ =>
        .bind (.tokenEnd _ (colon.val + 1)) fun equal =>
          .bind (.expressionEnd equal.val) fun _ => .ok _

theorem declarationEnd (place : Nat) : script.Blames (script.declarationEnd place) := by
  unfold Script.declarationEnd
  split
  · exact .map (.namedDeclarationEnd _) _
  · exact .namedDeclarationEnd place

theorem indicesEnd (place : Nat) : script.Blames (assignmentEnd.indicesEnd script place) := by
  fun_induction assignmentEnd.indicesEnd script place with
  | case1 place indexed ih =>
      exact .bind (.bracketsEnd place) fun next => .bind (ih next) fun _ => .ok _
  | case2 => exact .ok _

theorem assignmentEnd (place : Nat) : script.Blames (script.assignmentEnd place) := by
  refine .bind (.indicesEnd (place + 1)) fun target => ?_
  split
  · exact .ok _
  · split
    · exact .bind (.expressionEnd _) fun _ => .ok _
    · exact .fault _ _

variable (running : Option DeclaredType)

mutual

theorem unterminatedEnd (place : Nat) : script.Blames (script.unterminatedEnd running place) := by
  -- The header of a loop and its body.
  have loop {word : Keyword} (begun : script.kindAt place = .keyword word)
      (header : Ahead (place + 1)) : script.Blames (script.bodyEnd running header.val) := by
    have inside : place < script.size := lt_size_of_kindAt (by simp [begun])
    exact bodyEnd header.val
  rw [Script.unterminatedEnd]
  split
  case _ begun =>
    refine .bind (.parenthesesEnd _) fun condition => ?_
    refine .bind (loop begun condition) fun body => ?_
    have inside : place < script.size := lt_size_of_kindAt (by simp [begun])
    exact .bind (branchesEnd body.val) fun _ => .ok _
  case _ begun =>
    exact .bind (.parenthesesEnd _) fun header => .bind (loop begun header) fun _ => .ok _
  case _ begun =>
    exact .bind (.parenthesesEnd _) fun header => .bind (loop begun header) fun _ => .ok _
  case _ => exact .bind (.bracesEnd _) fun _ => .ok _
  case _ => exact .bracesEnd place
  case _ => exact .bind (.parenthesesEnd _) fun _ => .ok _
  case _ => exact .bind (.parenthesesEnd _) fun _ => .ok _
  case _ => exact .ok _
  case _ => exact .ok _
  case _ =>
    split
    · exact .bind (.expressionEnd _) fun _ => .ok _
    · exact .ok _
  case _ => exact .declarationEnd place
  case _ =>
    split
    · exact .declarationEnd place
    · split
      · exact .bind (.parenthesesEnd _) fun _ => .ok _
      · exact .assignmentEnd place
  case _ => exact .fault _ place
termination_by (script.size - place, 0)
decreasing_by
  all_goals
    simp only [Prod.lex_def]
    omega

theorem statementEnd (place : Nat) : script.Blames (script.statementEnd running place) := by
  rw [Script.statementEnd]
  split
  · exact .ok _
  · exact .map (unterminatedEnd place) _
termination_by (script.size - place, 1)

theorem bodyEnd (place : Nat) : script.Blames (script.bodyEnd running place) := by
  rw [Script.bodyEnd]
  split
  · exact .bracesEnd place
  · exact statementEnd place
termination_by (script.size - place, 2)

theorem branchesEnd (place : Nat) : script.Blames (script.branchesEnd running place) := by
  rw [Script.branchesEnd]
  split
  case _ begun =>
    have inside : place < script.size := lt_size_of_kindAt (by simp [begun])
    refine .bind (.parenthesesEnd _) fun condition => ?_
    refine .bind (bodyEnd condition.val) fun body => ?_
    exact .bind (branchesEnd body.val) fun _ => .ok _
  case _ =>
    split
    case _ begun =>
      have inside : place < script.size := lt_size_of_kindAt (by simp [begun])
      exact .bind (bodyEnd (place + 1)) fun _ => .ok _
    case _ => exact .ok _
termination_by (script.size - place, 0)
decreasing_by
  all_goals
    simp only [Prod.lex_def]
    omega

end

end Blames

end Onepass.Script
