import Onepass.Proofs.Tree.Level

/-! # Operands

Literals and variables are read as their trees are evaluated. A call does the same wherever it stands, and
with enough fuel it comes to the same end.
-/

set_option autoImplicit false

namespace Onepass

namespace Exec

variable (script : Script) (verbosity : Nat)

/-- Wherever the tree is shown, its level reads it. -/
def Opened (tree : Expr) : Prop :=
  ∀ {first last : Nat}, script.Shows first last tree.tokens →
    (script.kindAt last).Ends tree.level → tree.extendedBy (script.kindAt last) = false →
      Opens script verbosity tree.level first last (fun fuel => tree.evaluate script verbosity fuel)

variable {script verbosity} {first last : Nat}

/-- A tree that stands for itself, or in brackets. -/
theorem Opened.expression {tree : Expr} (opened : Opened script verbosity tree)
    (shown : script.Shows first last tree.tokens) (alone : (script.kindAt last).joint? = none)
    (apart : tree.extendedBy (script.kindAt last) = false) :
    Reads Eq first last (fun fuel _ => Exec.expression script verbosity fuel)
      (fun fuel => tree.evaluate script verbosity fuel) := by
  have opens := (opened shown (.of_none alone) apart).loosened (Nat.zero_le _) tree.level_le
    (.of_none alone)
  exact opens.expression alone

/-! ## Operands -/

theorem opened_number (digits : String) : Opened script verbosity (.number digits) := by
  intro first last shown _ _
  obtain ⟨alike, rfl⟩ := shown
  have known : script.kindAt first = .numberLiteral := alike.kind
  apply opens_of_operand known rfl
  apply Reads.current
  simp only [alike.kind, alike.word]
  apply Reads.advance (by simp [known])
  exact .pure rfl

theorem opened_character (text : String) : Opened script verbosity (.character text) := by
  intro first last shown _ _
  obtain ⟨alike, rfl⟩ := shown
  have known : script.kindAt first = .charLiteral := alike.kind
  apply opens_of_operand known rfl
  apply Reads.current
  have word : (script.tokenAt first).word = text := alike.word
  simp only [alike.kind, word]
  apply Reads.advance (by simp [known])
  apply Reads.steady
  cases text.toList with
  | nil => exact .refuse _ trivial
  | cons char _ => exact .same (Value.char char)

theorem opened_boolean (value : Bool) : Opened script verbosity (.boolean value) := by
  intro first last shown _ _
  obtain ⟨alike, rfl⟩ := shown
  have known : script.kindAt first = .booleanLiteral := alike.kind
  apply opens_of_operand known rfl
  apply Reads.current
  simp only [alike.kind, alike.word]
  apply Reads.advance (by simp [known])
  apply Reads.pure
  cases value <;> rfl

theorem opened_null : Opened script verbosity .null := by
  intro first last shown _ _
  obtain ⟨alike, rfl⟩ := shown
  have known : script.kindAt first = .keyword .nullWord := alike.kind
  apply opens_of_operand known rfl
  apply Reads.current
  simp only [alike.kind]
  apply Reads.advance (by simp [known])
  exact .pure rfl

theorem opened_named (marked : Bool) (name : String) :
    Opened script verbosity (.named marked name) := by
  intro first last shown _ apart
  cases marked with
  | false =>
      obtain ⟨alike, rfl⟩ := shown
      have known : script.kindAt first = .identifier := alike.kind
      apply opens_of_operand known rfl
      apply Reads.current
      simp only [alike.kind]
      apply Reads.followingKind
      simp only [of_decide_eq_false apart]
      apply Reads.advance (by simp [known])
      exact .steady ((Coupling.displaced_stores _).valueOf alike)
  | true =>
      obtain ⟨dollar, alike, rfl⟩ := shown
      have marked : script.kindAt first = .symbol .dollar := dollar.kind
      have known : script.kindAt (first + 1) = .identifier := alike.kind
      apply opens_of_operand marked rfl
      apply Reads.current
      simp only [dollar.kind]
      apply Reads.advance (by simp [marked])
      apply Reads.expectName known
      exact .steady ((Coupling.displaced_stores _).valueOf alike)

theorem reads_pieces {pieces : List Piece}
    (shown : script.Shows first last (pieces.map Piece.token))
    (stops : (script.kindAt last).isStringPiece = false) :
    Reads Eq first last (fun _ rounds => stringLiteral script rounds) (fun _ => Piece.join pieces) := by
  induction pieces generalizing first with
  | nil =>
      cases shown
      apply Reads.shift
      apply Reads.currentKind
      generalize script.kindAt last = kind at stops
      cases kind <;> first | exact .pure rfl | cases stops
  | cons piece pieces ih =>
      obtain ⟨alike, rest⟩ := shown
      apply Reads.shift
      apply Reads.currentKind
      cases piece with
      | text content =>
          have known : script.kindAt first = .stringLiteral := alike.kind
          simp only [known]
          apply Reads.advance (by simp [known])
          simp only [Piece.join, Piece.evaluate, pure_bind, alike.word]
          exact (ih rest).then fun _ => .pure rfl
      | reference name =>
          have known : script.kindAt first = .reference := alike.kind
          simp only [known]
          apply Reads.advance (by simp [known])
          simp only [Piece.join, Piece.evaluate, bind_assoc]
          apply (Reads.steady ((Coupling.displaced_stores _).valueOf alike)).then
          intro value
          apply (Reads.steady ((Coupling.displaced_stores _).printed value)).then
          intro text
          exact (ih rest).then fun _ => .pure rfl

theorem opened_string (piece : Piece) (pieces : List Piece) :
    Opened script verbosity (.string piece pieces) := by
  intro first last shown _ apart
  have known : script.kindAt first = piece.token.kind := shown.1.kind
  apply opens_of_operand known
  · cases piece <;> rfl
  · have read : Reads Eq first last (operand script verbosity) (fun _ => do
        return Value.string (← Piece.join (piece :: pieces))) := by
      apply Reads.current
      simp only [show (script.tokenAt first).kind = piece.token.kind from known]
      cases piece <;> exact (reads_pieces shown apart).then fun _ => .pure rfl
    exact read

/-! ## Calls -/

/-- The body of a function does not know where the call stands. -/
theorem invoke_outcomes_displaced (evaluator : Evaluator) (function : Function) (values : List Value)
    (name twin : Token) (fuel place : Nat) (machine : Machine) :
    (Coupling.displaced place).Outcomes Eq
      (invoke evaluator function values name fuel { machine with cursor := place })
      (invoke evaluator function values twin fuel machine) := by
  have body : (Coupling.displaced place).Outcomes Eq
      (ensuring (leaveCall place machine.loopDepth)
        (callBody evaluator.statement function.finish fuel) (enterCall function values machine))
      (ensuring (leaveCall machine.cursor machine.loopDepth)
        (callBody evaluator.statement function.finish fuel) (enterCall function values machine)) := by
    unfold ensuring
    cases callBody evaluator.statement function.finish fuel (enterCall function values machine) with
    | ok ended final => exact .succeeded rfl rfl
    | error failure final => exact .failed (Failure.Alike.refl failure).anywhere rfl
  rw [invoke_eq, invoke_eq]
  apply Coupling.bind_outcomes body
  rintro ended _ middle between _ rfl inside
  exact Coupling.Laws.callResult function trivial ended inside

theorem performCall_pairs (place fuel : Nat) (name : String) {token : Token}
    (alike : Token.Alike (fun _ _ => True) token (.name name)) (given : List (Token × Value)) :
    (Coupling.displaced place).Pairs Eq
      (performCall (evaluator script verbosity fuel) token given fuel)
      (performCall (evaluator script verbosity fuel) (.name name)
        ((given.map Prod.snd).map fun value => (Token.mark .comma, value)) fuel) := by
  have same : List.Forall₂ (Coupling.displaced place).SameAt given
      ((given.map Prod.snd).map fun value => (Token.mark .comma, value)) := by
    rw [List.map_map, List.forall₂_map_right_iff]
    exact List.forall₂_same.mpr fun _ _ => ⟨trivial, rfl⟩
  apply (Coupling.displaced_stores place).performCall ⟨alike.kind, alike.text, trivial⟩ same
  rintro _ machine rfl _ function
  exact invoke_outcomes_displaced _ function _ token _ fuel place machine

theorem performCall_settles (name : Token) (given : List (Token × Value)) (machine : Machine) :
    ∃ outcome, Settles (fun fuel => performCall (evaluator script verbosity fuel) name given fuel)
      machine outcome := by
  apply settles_of_fuelled
  intro fuel more le
  apply (fuelled_laws script).performCall (fuelled_evaluators script verbosity le) (.of_le trivial le)
    ⟨rfl, rfl, rfl⟩
  exact List.forall₂_same.mpr fun _ _ => ⟨rfl, rfl⟩

end Exec

end Onepass
