import Onepass.Proofs.Extent.Nesting

/-! # How far expressions reach when passed over

An expression is passed over as a row of operands with binary operators between them. So the end of an
expression can be told from any place in it that lies behind an operand: what is left is the rest from
there on. The parts of an expression are described by what they do to this rest.
-/

set_option autoImplicit false

namespace Onepass

namespace Kind

/-- Whether an expression that ends before a token of the kind would go on when passed over. -/
def continuesExpression : Kind → Bool
  | .symbol .leftBracket | .symbol .dot | .keyword .isWord | .keyword .asWord => true
  | kind => kind.binary?.isSome

/-- Whether a token of the kind is neither a bracket nor the end. -/
def isOrdinary : Kind → Bool
  | .symbol .leftParen | .symbol .rightParen | .symbol .leftBracket | .symbol .rightBracket
  | .symbol .leftBrace | .symbol .rightBrace | .endOfInput => false
  | _ => true

theorem isOrdinary_of_binary {kind : Kind} (joins : kind.binary?.isSome = true) :
    kind.isOrdinary = true := by
  cases kind with
  | symbol mark => cases mark <;> first | rfl | cases joins
  | _ => cases joins

theorem continuesExpression_of_binary {kind : Kind} (joins : kind.binary?.isSome = true) :
    kind.continuesExpression = true := by
  cases kind with
  | symbol mark => cases mark <;> first | rfl | cases joins
  | _ => cases joins

theorem isOrdinary_of_unary {kind : Kind} (modifies : kind.unary?.isSome = true) :
    kind.isOrdinary = true := by
  cases kind with
  | symbol mark => cases mark <;> first | rfl | cases modifies
  | _ => cases modifies

theorem isOrdinary_of_type {kind : Kind} (names : kind.isType = true) : kind.isOrdinary = true := by
  cases kind <;> first | rfl | cases names

theorem isOrdinary_of_step {kind : Kind} (steps : kind.isStep = true) : kind.isOrdinary = true := by
  cases kind with
  | symbol mark => cases mark <;> first | rfl | cases steps
  | _ => cases steps

theorem isOrdinary_of_assignment {kind : Kind} (assigns : kind.isAssignment = true) :
    kind.isOrdinary = true := by
  cases kind with
  | symbol mark => cases mark <;> first | rfl | cases assigns
  | _ => cases assigns

theorem isOrdinary_of_piece {kind : Kind} (piece : kind.isStringPiece = true) :
    kind.isOrdinary = true := by
  cases kind <;> first | rfl | cases piece

end Kind

namespace Script

variable {script : Script} {first middle last place : Nat}

theorem kindAt_ne_of_ordinary (ordinary : (script.kindAt place).isOrdinary = true) :
    script.kindAt place ≠ .endOfInput := by
  intro ended
  rw [ended] at ordinary
  cases ordinary

theorem kindAt_ne_of_binary (joins : (script.kindAt place).binary?.isSome = true) :
    script.kindAt place ≠ .endOfInput :=
  kindAt_ne_of_ordinary (Kind.isOrdinary_of_binary joins)

/-- A part that is transparent for every pair of brackets. -/
def Clear (script : Script) (first last : Nat) : Prop :=
  ∀ bracket, script.Transparent bracket first last

namespace Clear

theorem refl (place : Nat) : script.Clear place place :=
  fun _ => .refl place

theorem trans (start : script.Clear first middle) (rest : script.Clear middle last) :
    script.Clear first last :=
  fun bracket => (start bracket).trans (rest bracket)

theorem token (ordinary : (script.kindAt place).isOrdinary = true) :
    script.Clear place (place + 1) := by
  intro bracket
  refine .token ?_ ?_ ?_ <;> intro there <;> rw [there] at ordinary
  · cases ordinary
  · cases bracket <;> cases ordinary
  · cases bracket <;> cases ordinary

theorem enclosed (pair : Bracket) (opened : script.kindAt first = pair.opening)
    (inside : script.Clear (first + 1) last) (closed : script.kindAt last = pair.closing) :
    script.Clear first (last + 1) :=
  fun bracket => .enclosed opened (inside bracket) closed

end Clear

/-- Something in brackets of a pair, with nothing unmatched inside. -/
structure Enclosed (script : Script) (pair : Bracket) (first last : Nat) : Prop where
  opened : script.kindAt first = pair.opening
  closed : ∃ inner, script.Clear (first + 1) inner ∧ script.kindAt inner = pair.closing ∧
    last = inner + 1

theorem Enclosed.clear {pair : Bracket} (enclosed : script.Enclosed pair first last) :
    script.Clear first last := by
  obtain ⟨inner, inside, closed, rfl⟩ := enclosed.closed
  exact .enclosed pair enclosed.opened inside closed

theorem Enclosed.reaches {pair : Bracket} (enclosed : script.Enclosed pair first last) :
    Reaches (script.balancedEnd pair.opening pair.closing) first last := by
  obtain ⟨inner, inside, closed, rfl⟩ := enclosed.closed
  exact (inside pair).reaches enclosed.opened closed

/-- A call with its arguments. -/
def IsCall (script : Script) (first last : Nat) : Prop :=
  script.kindAt first = .identifier ∧ script.Enclosed .round (first + 1) last

/-! ## The rest of an expression -/

/-- The end of an expression of which an operand with some of what follows it was passed over. -/
def restEnd (script : Script) (place : Nat) : Except Diagnostic Nat := do
  let finish ← script.suffixesEnd place
  if (script.kindAt finish.val).binary?.isSome = true then
    (script.expressionEnd (finish.val + 1)).map Subtype.val
  else return finish.val

theorem expressionEnd_eq (script : Script) (place : Nat) :
    (script.expressionEnd place).map Subtype.val =
      script.operandEnd (script.runEnd (fun kind => kind.unary?.isSome) place).val >>= fun operand =>
        script.restEnd operand.val := by
  rw [expressionEnd]
  cases script.operandEnd (script.runEnd (fun kind => kind.unary?.isSome) place).val with
  | error diagnostic => rfl
  | ok operand =>
      change Except.map _ (script.suffixesEnd operand.val >>= _) =
        (script.suffixesEnd operand.val >>= _)
      cases script.suffixesEnd operand.val with
      | error diagnostic => rfl
      | ok finish =>
          change Except.map _ (dite _ _ _) = ite _ _ _
          split
          · cases script.expressionEnd (finish.val + 1) <;> rfl
          · rfl

theorem expressionEnd_of_unary (modifies : (script.kindAt place).unary?.isSome = true) :
    (script.expressionEnd place).map Subtype.val =
      (script.expressionEnd (place + 1)).map Subtype.val := by
  have proper : script.kindAt place ≠ .endOfInput := by
    intro ended
    rw [ended] at modifies
    cases modifies
  rw [expressionEnd_eq, expressionEnd_eq, runEnd, dif_pos ⟨proper, modifies⟩]

theorem expressionEnd_of_operand (bare : (script.kindAt place).unary? = none) {operand : Ahead place}
    (found : script.operandEnd place = .ok operand) :
    (script.expressionEnd place).map Subtype.val = script.restEnd operand.val := by
  rw [expressionEnd_eq, runEnd, dif_neg (by simp [bare]), found]
  rfl

theorem restEnd_of_suffix {next : Ahead place} (follows : script.suffixEnd? place = some (.ok next)) :
    script.restEnd place = script.restEnd next.val := by
  unfold restEnd
  rw [suffixesEnd]
  split
  case _ none => rw [follows] at none; cases none
  case _ result found =>
    rw [follows] at found
    cases found
    change (Bind.bind (Bind.bind (script.suffixesEnd next.val) _) _ : Except Diagnostic Nat) = _
    cases script.suffixesEnd next.val <;> rfl

theorem restEnd_of_none (bare : script.suffixEnd? place = none) :
    script.restEnd place = if (script.kindAt place).binary?.isSome = true then
      (script.expressionEnd (place + 1)).map Subtype.val else .ok place := by
  unfold restEnd
  rw [suffixesEnd]
  split
  case _ => rfl
  case _ found => rw [bare] at found; cases found

theorem restEnd_of_binary (joins : (script.kindAt place).binary?.isSome = true) :
    script.restEnd place = (script.expressionEnd (place + 1)).map Subtype.val := by
  have bare : script.suffixEnd? place = none := by
    unfold suffixEnd?
    split <;> simp_all [Kind.binary?, BinaryOperator.ofSymbol?]
  rw [restEnd_of_none bare, if_pos joins]

theorem restEnd_of_stop (stops : (script.kindAt place).continuesExpression = false) :
    script.restEnd place = .ok place := by
  have bare : script.suffixEnd? place = none := by
    unfold suffixEnd?
    split <;> simp_all [Kind.continuesExpression]
  rw [restEnd_of_none bare, if_neg]
  intro joins
  rw [Kind.continuesExpression_of_binary joins] at stops
  cases stops

/-! ## Read and passed over alike -/

/-- What was read between two places is an operand with what may follow it: passed over, it comes to
the second place and goes on from there. -/
structure Spans (script : Script) (first last : Nat) : Prop where
  clear : script.Clear first last
  ends : (script.expressionEnd first).map Subtype.val = script.restEnd last

/-- What was read between two places continues an expression. -/
structure Continues (script : Script) (first last : Nat) : Prop where
  clear : script.Clear first last
  ends : script.restEnd first = script.restEnd last

theorem Spans.reaches (spans : script.Spans first last)
    (stops : (script.kindAt last).continuesExpression = false) :
    Reaches script.expressionEnd first last := by
  have ends := spans.ends
  rw [restEnd_of_stop stops] at ends
  obtain ⟨next, found, rfl⟩ := map_ok ends
  exact reaches_of_ok found

theorem Spans.continued (spans : script.Spans first middle) (rest : script.Continues middle last) :
    script.Spans first last :=
  ⟨spans.clear.trans rest.clear, spans.ends.trans rest.ends⟩

theorem Spans.prefixed (modifies : (script.kindAt first).unary?.isSome = true)
    (spans : script.Spans (first + 1) last) : script.Spans first last :=
  ⟨(Clear.token (Kind.isOrdinary_of_unary modifies)).trans spans.clear,
    (expressionEnd_of_unary modifies).trans spans.ends⟩

theorem Spans.operand (bare : (script.kindAt first).unary? = none)
    (clear : script.Clear first last) (reached : Reaches script.operandEnd first last) :
    script.Spans first last := by
  obtain ⟨ahead, found⟩ := reached
  exact ⟨clear, expressionEnd_of_operand bare found⟩

namespace Continues

theorem refl (place : Nat) : script.Continues place place :=
  ⟨.refl place, rfl⟩

theorem trans (start : script.Continues first middle) (rest : script.Continues middle last) :
    script.Continues first last :=
  ⟨start.clear.trans rest.clear, start.ends.trans rest.ends⟩

theorem joined (joins : (script.kindAt first).binary?.isSome = true)
    (operand : script.Spans (first + 1) last) : script.Continues first last :=
  ⟨(Clear.token (Kind.isOrdinary_of_binary joins)).trans operand.clear,
    (restEnd_of_binary joins).trans operand.ends⟩

theorem suffix (clear : script.Clear first last) (ahead : first < last)
    (follows : script.suffixEnd? first = some (.ok ⟨last, ahead⟩)) : script.Continues first last :=
  ⟨clear, restEnd_of_suffix follows⟩

theorem index (enclosed : script.Enclosed .square first last) : script.Continues first last := by
  obtain ⟨ahead, found⟩ : Reaches script.bracketsEnd first last := enclosed.reaches
  refine suffix enclosed.clear ahead ?_
  rw [suffixEnd?, enclosed.opened]
  exact congrArg some found

theorem member (dotted : script.kindAt first = .symbol .dot)
    (named : script.kindAt (first + 1) = .identifier) : script.Continues first (first + 2) := by
  have clear : script.Clear first (first + 2) :=
    (Clear.token (by rw [dotted]; rfl)).trans (Clear.token (by rw [named]; rfl))
  refine suffix clear (by omega) ?_
  rw [suffixEnd?, dotted]
  simp only [tokenEnd, named]
  rfl

theorem typed (asked : script.kindAt first = .keyword .isWord ∨ script.kindAt first = .keyword .asWord)
    (type : (script.kindAt (first + 1)).isType = true) : script.Continues first (first + 2) := by
  have ordinary : (script.kindAt first).isOrdinary = true := by
    rcases asked with asked | asked <;> rw [asked] <;> rfl
  have clear : script.Clear first (first + 2) :=
    (Clear.token ordinary).trans (Clear.token (Kind.isOrdinary_of_type type))
  refine suffix clear (by omega) ?_
  rcases asked with asked | asked <;> rw [suffixEnd?, asked] <;> exact if_pos type

end Continues

/-! ## Operands -/

theorem runEnd_of_member {isMember : Kind → Bool} (proper : script.kindAt place ≠ .endOfInput)
    (member : isMember (script.kindAt place) = true) :
    (script.runEnd isMember place).val = (script.runEnd isMember (place + 1)).val := by
  rw [runEnd, dif_pos ⟨proper, member⟩]

theorem runEnd_of_stop {isMember : Kind → Bool} (stops : isMember (script.kindAt place) = false) :
    (script.runEnd isMember place).val = place := by
  rw [runEnd, dif_neg (by simp [stops])]

namespace Spans

theorem literal (operand : script.operandEnd first = .ok ⟨first + 1, Nat.lt_succ_self first⟩)
    (bare : (script.kindAt first).unary? = none)
    (ordinary : (script.kindAt first).isOrdinary = true) : script.Spans first (first + 1) :=
  .operand bare (.token ordinary) ⟨Nat.lt_succ_self first, operand⟩

theorem pieces (piece : (script.kindAt first).isStringPiece = true)
    (clear : script.Clear first last)
    (ended : (script.runEnd Kind.isStringPiece first).val = last) : script.Spans first last := by
  have proper : script.kindAt first ≠ .endOfInput := by
    intro there
    rw [there] at piece
    cases piece
  rw [runEnd_of_member proper piece] at ended
  have ahead : first < last := by
    rw [← ended]
    exact (script.runEnd Kind.isStringPiece (first + 1)).property
  refine .operand ?_ clear ⟨ahead, ?_⟩
  · cases known : script.kindAt first <;> simp_all [Kind.isStringPiece, Kind.unary?]
  · subst ended
    unfold operandEnd
    split <;> simp_all [Kind.isStringPiece]

theorem parenthesised (enclosed : script.Enclosed .round first last) : script.Spans first last := by
  obtain ⟨ahead, found⟩ : Reaches script.parenthesesEnd first last := enclosed.reaches
  refine .operand ?_ enclosed.clear ⟨ahead, ?_⟩
  · rw [enclosed.opened]
    rfl
  · rw [operandEnd, enclosed.opened]
    exact found

theorem array (enclosed : script.Enclosed .square first last) : script.Spans first last := by
  obtain ⟨ahead, found⟩ : Reaches script.bracketsEnd first last := enclosed.reaches
  refine .operand ?_ enclosed.clear ⟨ahead, ?_⟩
  · rw [enclosed.opened]
    rfl
  · rw [operandEnd, enclosed.opened]
    exact found

theorem call (called : script.IsCall first last) : script.Spans first last := by
  obtain ⟨named, enclosed⟩ := called
  obtain ⟨ahead, found⟩ : Reaches script.parenthesesEnd (first + 1) last := enclosed.reaches
  have clear : script.Clear first last :=
    (Clear.token (by rw [named]; rfl)).trans enclosed.clear
  refine .operand ?_ clear ⟨Nat.lt_of_succ_lt ahead, ?_⟩
  · rw [named]
    rfl
  · rw [operandEnd, named]
    dsimp only
    rw [if_pos (show script.kindAt (first + 1) = .symbol .leftParen from enclosed.opened), found]
    rfl

theorem dollar (there : script.kindAt first = .symbol .dollar)
    (named : script.kindAt (first + 1) = .identifier) : script.Spans first (first + 2) := by
  have clear : script.Clear first (first + 2) :=
    (Clear.token (by rw [there]; rfl)).trans (Clear.token (by rw [named]; rfl))
  refine .operand ?_ clear ⟨by omega, ?_⟩
  · rw [there]
    rfl
  · rw [operandEnd, there]
    dsimp only
    rw [tokenEnd, if_pos named]
    rfl

end Spans

end Script

end Onepass
