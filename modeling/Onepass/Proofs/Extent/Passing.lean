import Onepass.Proofs.Extent.Phrase

/-! # What is passed over

Bodies that are not executed are passed over token by token and bracket by bracket. What that respects
is said of a relation between places: a single token respects it, and so do something in brackets and
the header of a function. Then every part of a script that is passed over does.

Two relations are of this kind. No part that is passed over holds the end of the script. And in a script
whose brackets are properly nested, and in which no closing brace stands in the header of a function,
every such part holds as many closing braces as opening ones, in a proper order.
-/

set_option autoImplicit false

namespace Onepass.Script

variable {script : Script} {running : Option DeclaredType}

/-- A relation between places that what is passed over respects. -/
structure Passable (script : Script) (relation : Nat → Nat → Prop) : Prop where
  refl : ∀ place, relation place place
  trans : ∀ {first middle last}, relation first middle → relation middle last → relation first last
  token : ∀ {place}, (script.kindAt place).isOrdinary = true → relation place (place + 1)
  enclosed : ∀ (pair : Bracket) {place} {next : Ahead place},
    script.balancedEnd pair.opening pair.closing place = .ok next → relation place next.val
  header : ∀ {place}, script.kindAt place = .keyword .funcWord →
    relation place (script.runEnd (· != .symbol .leftBrace) place).val

theorem typeAt_ok {place : Nat} {type : DeclaredType} (found : script.typeAt place = .ok type) :
    (script.kindAt place).isType = true := by
  unfold typeAt at found
  dsimp only at found
  split at found
  case _ named => exact named
  case _ => cases found

theorem member_of_runEnd {place inner : Nat} {isMember : Kind → Bool} (after : place ≤ inner)
    (before : inner < (script.runEnd isMember place).val) :
    script.kindAt inner ≠ .endOfInput ∧ isMember (script.kindAt inner) = true := by
  by_cases member : script.kindAt place ≠ .endOfInput ∧ isMember (script.kindAt place) = true
  · rw [runEnd_of_member member.1 member.2] at before
    rcases Nat.eq_or_lt_of_le after with rfl | further
    · exact member
    · exact member_of_runEnd further before
  · rw [runEnd, dif_neg member] at before
    exact absurd before (Nat.not_lt_of_le after)
termination_by script.size - place
decreasing_by
  have := lt_size_of_kindAt member.1
  omega

namespace Passable

variable {relation : Nat → Nat → Prop} (passable : script.Passable relation)

include passable

/-! ## Expressions -/

theorem tokenEnd {place : Nat} {kind : Kind} (ordinary : kind.isOrdinary = true) {next : Ahead place}
    (found : script.tokenEnd kind place = .ok next) : relation place next.val := by
  obtain ⟨there, after⟩ := tokenEnd_ok found
  rw [after]
  exact passable.token (by rw [there]; exact ordinary)

theorem runEnd {place : Nat} {isMember : Kind → Bool}
    (ordinary : ∀ kind, isMember kind = true → kind.isOrdinary = true) :
    relation place (script.runEnd isMember place).val := by
  by_cases member : script.kindAt place ≠ .endOfInput ∧ isMember (script.kindAt place) = true
  · rw [runEnd_of_member member.1 member.2]
    exact passable.trans (passable.token (ordinary _ member.2)) (runEnd ordinary)
  · rw [Script.runEnd, dif_neg member]
    exact passable.refl place
termination_by script.size - place
decreasing_by
  have := lt_size_of_kindAt member.1
  omega

theorem operandEnd {place : Nat} {next : Ahead place} (found : script.operandEnd place = .ok next) :
    relation place next.val := by
  have single (ordinary : (script.kindAt place).isOrdinary = true)
      (found : (.ok ⟨place + 1, Nat.lt_succ_self place⟩ : Except Diagnostic (Ahead place)) = .ok next) :
      relation place next.val := by
    cases found
    exact passable.token ordinary
  have pieces : relation (place + 1) (script.runEnd Kind.isStringPiece (place + 1)).val :=
    passable.runEnd fun _ piece => Kind.isOrdinary_of_piece piece
  unfold Script.operandEnd at found
  generalize known : script.kindAt place = kind at found single
  split at found
  · exact single rfl found
  · exact single rfl found
  · exact single rfl found
  · exact single rfl found
  · cases found
    exact passable.trans (passable.token (by rw [known]; rfl)) pieces
  · cases found
    exact passable.trans (passable.token (by rw [known]; rfl)) pieces
  · exact passable.enclosed .round found
  · exact passable.enclosed .square found
  · split at found
    · obtain ⟨after, arguments, rfl⟩ := map_ok found
      exact passable.trans (passable.token (by rw [known]; rfl)) (passable.enclosed .round arguments)
    · exact single rfl found
  · obtain ⟨after, name, rfl⟩ := map_ok found
    exact passable.trans (passable.token (by rw [known]; rfl)) (passable.tokenEnd rfl name)
  · cases found

theorem suffixEnd {place : Nat} {next : Ahead place}
    (found : script.suffixEnd? place = some (.ok next)) : relation place next.val := by
  unfold suffixEnd? at found
  generalize known : script.kindAt place = kind at found
  split at found
  · exact passable.enclosed .square (Option.some.inj found)
  · obtain ⟨after, name, rfl⟩ := map_ok (Option.some.inj found)
    exact passable.trans (passable.token (by rw [known]; rfl)) (passable.tokenEnd rfl name)
  · split at found
    case _ type =>
      cases found
      exact passable.trans (passable.token (by rw [known]; rfl))
        (passable.token (Kind.isOrdinary_of_type type))
    case _ => cases found
  · split at found
    case _ type =>
      cases found
      exact passable.trans (passable.token (by rw [known]; rfl))
        (passable.token (Kind.isOrdinary_of_type type))
    case _ => cases found
  · cases found

theorem suffixesEnd {place : Nat} {next : Onward place}
    (found : script.suffixesEnd place = .ok next) : relation place next.val := by
  rw [Script.suffixesEnd] at found
  split at found
  case _ =>
    cases found
    exact passable.refl place
  case _ result follows =>
    obtain ⟨middle, one, found⟩ := bind_ok found
    obtain ⟨after, others, found⟩ := bind_ok found
    cases found
    subst one
    exact passable.trans (passable.suffixEnd follows) (suffixesEnd others)
termination_by script.size - place
decreasing_by
  have := lt_size_of_suffixEnd? follows
  have := middle.property
  omega

theorem expressionEnd {place : Nat} {next : Ahead place}
    (found : script.expressionEnd place = .ok next) : relation place next.val := by
  rw [Script.expressionEnd] at found
  obtain ⟨operand, first, found⟩ := bind_ok found
  obtain ⟨finish, suffixes, found⟩ := bind_ok found
  have read : relation place finish.val :=
    passable.trans (passable.runEnd fun _ modifies => Kind.isOrdinary_of_unary modifies)
      (passable.trans (passable.operandEnd first) (passable.suffixesEnd suffixes))
  dsimp only at found
  split at found
  case _ joins =>
    obtain ⟨after, others, found⟩ := bind_ok found
    cases found
    have inside : finish.val < script.size := lt_size_of_kindAt (kindAt_ne_of_binary joins)
    exact passable.trans read (passable.trans
      (passable.token (Kind.isOrdinary_of_binary joins)) (expressionEnd others))
  case _ =>
    cases found
    exact read
termination_by script.size - place
decreasing_by
  have := (script.runEnd (fun kind => kind.unary?.isSome) place).property
  have := operand.property
  have := finish.property
  omega

/-! ## Statements -/

theorem namedDeclarationEnd {place : Nat} {next : Ahead place}
    (found : script.namedDeclarationEnd place = .ok next) : relation place next.val := by
  unfold Script.namedDeclarationEnd at found
  obtain ⟨name, named, found⟩ := bind_ok found
  obtain ⟨colon, typed, found⟩ := bind_ok found
  obtain ⟨type, known, found⟩ := bind_ok found
  obtain ⟨equal, assigned, found⟩ := bind_ok found
  obtain ⟨finish, value, found⟩ := bind_ok found
  cases found
  have typing : relation place (colon.val + 1) :=
    passable.trans (passable.tokenEnd rfl named) (passable.trans (passable.tokenEnd rfl typed)
      (passable.token (Kind.isOrdinary_of_type (typeAt_ok known))))
  exact passable.trans typing
    (passable.trans (passable.tokenEnd rfl assigned) (passable.expressionEnd value))

theorem declarationEnd {place : Nat} {next : Ahead place}
    (found : script.declarationEnd place = .ok next) : relation place next.val := by
  unfold Script.declarationEnd at found
  split at found
  case _ there =>
    obtain ⟨after, named, rfl⟩ := map_ok found
    exact passable.trans (passable.token (by rw [there]; rfl)) (passable.namedDeclarationEnd named)
  case _ => exact passable.namedDeclarationEnd found

theorem indicesEnd {place : Nat} {next : Onward place}
    (found : assignmentEnd.indicesEnd script place = .ok next) : relation place next.val := by
  rw [assignmentEnd.indicesEnd] at found
  split at found
  case _ indexed =>
    obtain ⟨middle, one, found⟩ := bind_ok found
    obtain ⟨after, others, found⟩ := bind_ok found
    cases found
    have inside : place < script.size := lt_size_of_kindAt (by simp [indexed])
    exact passable.trans (passable.enclosed .square one) (indicesEnd others)
  case _ =>
    cases found
    exact passable.refl place
termination_by script.size - place
decreasing_by
  have := middle.property
  omega

theorem assignmentEnd {place : Nat} (named : script.kindAt place = .identifier) {next : Ahead place}
    (found : script.assignmentEnd place = .ok next) : relation place next.val := by
  unfold Script.assignmentEnd at found
  obtain ⟨target, indices, found⟩ := bind_ok found
  have begun : relation place target.val :=
    passable.trans (passable.token (by rw [named]; rfl)) (passable.indicesEnd indices)
  split at found
  case _ steps =>
    cases found
    exact passable.trans begun (passable.token (Kind.isOrdinary_of_step steps))
  case _ =>
    split at found
    case _ assigns =>
      obtain ⟨finish, value, found⟩ := bind_ok found
      cases found
      exact passable.trans begun (passable.trans
        (passable.token (Kind.isOrdinary_of_assignment assigns)) (passable.expressionEnd value))
    case _ => cases found

theorem semicolonEnd {start : Nat} {next : Ahead start} (passed : relation start next.val) :
    relation start (script.semicolonEnd next).val := by
  unfold Script.semicolonEnd
  split
  case _ there => exact passable.trans passed (passable.token (by rw [there]; rfl))
  case _ => exact passed

theorem keyword {place : Nat} {word : Keyword} (begun : script.kindAt place = .keyword word) :
    relation place (place + 1) :=
  passable.token (by rw [begun]; rfl)

mutual

theorem unterminatedEnd {place : Nat} {next : Ahead place}
    (found : script.unterminatedEnd running place = .ok next) : relation place next.val := by
  -- The header of a loop and its body.
  have loop {word : Keyword} (begun : script.kindAt place = .keyword word) {header : Ahead (place + 1)}
      {body : Ahead header.val} (read : script.parenthesesEnd (place + 1) = .ok header)
      (passed : script.bodyEnd running header.val = .ok body) : relation place body.val := by
    have inside : place < script.size := lt_size_of_kindAt (by simp [begun])
    exact passable.trans (passable.keyword begun)
      (passable.trans (passable.enclosed .round read) (bodyEnd passed))
  rw [Script.unterminatedEnd] at found
  split at found
  case _ begun =>
    obtain ⟨condition, header, found⟩ := bind_ok found
    obtain ⟨body, first, found⟩ := bind_ok found
    obtain ⟨chain, others, found⟩ := bind_ok found
    cases found
    have inside : place < script.size := lt_size_of_kindAt (by simp [begun])
    exact passable.trans (loop begun header first) (branchesEnd others)
  case _ begun =>
    obtain ⟨header, read, found⟩ := bind_ok found
    obtain ⟨body, passed, found⟩ := bind_ok found
    cases found
    exact loop begun read passed
  case _ begun =>
    obtain ⟨header, read, found⟩ := bind_ok found
    obtain ⟨body, passed, found⟩ := bind_ok found
    cases found
    exact loop begun read passed
  case _ begun =>
    obtain ⟨body, passed, found⟩ := bind_ok found
    cases found
    exact passable.trans (passable.header begun) (passable.enclosed .curly passed)
  case _ => exact passable.enclosed .curly found
  case _ begun =>
    obtain ⟨arguments, read, found⟩ := bind_ok found
    cases found
    exact passable.trans (passable.keyword begun) (passable.enclosed .round read)
  case _ begun =>
    obtain ⟨arguments, read, found⟩ := bind_ok found
    cases found
    exact passable.trans (passable.keyword begun) (passable.enclosed .round read)
  case _ begun =>
    cases found
    exact passable.keyword begun
  case _ begun =>
    cases found
    exact passable.keyword begun
  case _ begun =>
    split at found
    · obtain ⟨value, read, found⟩ := bind_ok found
      cases found
      exact passable.trans (passable.keyword begun) (passable.expressionEnd read)
    · cases found
      exact passable.keyword begun
  case _ => exact passable.declarationEnd found
  case _ begun =>
    split at found
    · exact passable.declarationEnd found
    · split at found
      · obtain ⟨arguments, read, found⟩ := bind_ok found
        cases found
        exact passable.trans (passable.token (by rw [begun]; rfl)) (passable.enclosed .round read)
      · exact passable.assignmentEnd begun found
  case _ => cases found
termination_by (script.size - place, 0)
decreasing_by
  all_goals
    simp only [Prod.lex_def]
    omega

theorem statementEnd {place : Nat} {next : Ahead place}
    (found : script.statementEnd running place = .ok next) : relation place next.val := by
  rw [Script.statementEnd] at found
  split at found
  case _ there =>
    cases found
    exact passable.token (by rw [there]; rfl)
  case _ =>
    obtain ⟨finish, passed, rfl⟩ := map_ok found
    exact passable.semicolonEnd (unterminatedEnd passed)
termination_by (script.size - place, 1)

theorem bodyEnd {place : Nat} {next : Ahead place}
    (found : script.bodyEnd running place = .ok next) : relation place next.val := by
  rw [Script.bodyEnd] at found
  split at found
  case _ => exact passable.enclosed .curly found
  case _ => exact statementEnd found
termination_by (script.size - place, 2)

theorem branchesEnd {place : Nat} {next : Onward place}
    (found : script.branchesEnd running place = .ok next) : relation place next.val := by
  rw [Script.branchesEnd] at found
  split at found
  case _ begun =>
    obtain ⟨condition, header, found⟩ := bind_ok found
    obtain ⟨body, first, found⟩ := bind_ok found
    obtain ⟨chain, others, found⟩ := bind_ok found
    cases found
    have inside : place < script.size := lt_size_of_kindAt (by simp [begun])
    exact passable.trans (passable.keyword begun) (passable.trans (passable.enclosed .round header)
      (passable.trans (bodyEnd first) (branchesEnd others)))
  case _ =>
    split at found
    case _ begun =>
      obtain ⟨body, passed, found⟩ := bind_ok found
      cases found
      have inside : place < script.size := lt_size_of_kindAt (by simp [begun])
      exact passable.trans (passable.keyword begun) (bodyEnd passed)
    case _ =>
      cases found
      exact passable.refl place
termination_by (script.size - place, 0)
decreasing_by
  all_goals
    simp only [Prod.lex_def]
    omega

end

end Passable

/-! ## The end of the script -/

/-- The end of the script stands nowhere between two places. -/
structure Within (script : Script) (first last : Nat) : Prop where
  onward : first ≤ last
  proper : ∀ place, first ≤ place → place < last → script.kindAt place ≠ .endOfInput

namespace Within

variable {first middle last : Nat}

theorem refl (place : Nat) : script.Within place place :=
  ⟨Nat.le_refl place, fun _ after before => absurd before (Nat.not_lt_of_le after)⟩

theorem trans (start : script.Within first middle) (rest : script.Within middle last) :
    script.Within first last where
  onward := Nat.le_trans start.onward rest.onward
  proper place after before := by
    by_cases early : place < middle
    · exact start.proper place after early
    · exact rest.proper place (Nat.not_lt.mp early) before

theorem token {place : Nat} (proper : script.kindAt place ≠ .endOfInput) :
    script.Within place (place + 1) where
  onward := Nat.le_succ place
  proper inner after before := by
    obtain rfl : inner = place := by omega
    exact proper

theorem size_le (within : script.Within first last) (ahead : first < last) : last ≤ script.size := by
  have proper := within.proper (last - 1) (by omega) (by omega)
  have := lt_size_of_kindAt proper
  omega

end Within

theorem within_of_nestedEnd {opening closing : Kind} {depth place : Nat} {next : Onward place}
    (found : script.nestedEnd opening closing depth place = .ok next) :
    script.Within place next.val := by
  rw [nestedEnd.eq_def] at found
  split at found
  · cases found
    exact .refl place
  · split at found
    · cases found
    case _ proper =>
      obtain ⟨after, inside, rfl⟩ := map_ok found
      exact (Within.token proper).trans (within_of_nestedEnd inside)
termination_by script.size - place
decreasing_by
  have := lt_size_of_kindAt ‹_›
  omega

/-- Nothing that is passed over holds the end of the script. -/
theorem within_passable (script : Script) : script.Passable script.Within where
  refl := .refl
  trans := .trans
  token ordinary := .token (kindAt_ne_of_ordinary ordinary)
  enclosed pair place next found := by
    obtain ⟨inside, opened, found⟩ := bind_ok found
    obtain ⟨after, counted, found⟩ := bind_ok found
    obtain ⟨there, same⟩ := tokenEnd_ok opened
    cases found
    have begun : script.Within place inside.val := by
      rw [same]
      exact .token (by simp [there])
    exact begun.trans (within_of_nestedEnd counted)
  header := by
    intro place _
    exact ⟨(script.runEnd _ place).property, fun inner after before => (member_of_runEnd after before).1⟩

/-! ## The nesting of braces -/

/-- No closing brace stands between a place and the next opening brace. -/
def ClearUntilBrace (script : Script) (start : Nat) : Prop :=
  ∀ closing < script.size, start < closing → script.kindAt closing = .symbol .rightBrace →
    ∃ opening < closing, start < opening ∧ script.kindAt opening = .symbol .leftBrace

instance (script : Script) (start : Nat) : Decidable (script.ClearUntilBrace start) :=
  inferInstanceAs (Decidable (∀ _ < _, _))

/-- No closing brace stands between the beginning of a function and the next opening brace. -/
def ClearHeaders (script : Script) : Prop :=
  ∀ start < script.size, script.kindAt start = .keyword .funcWord → script.ClearUntilBrace start

instance : DecidablePred ClearHeaders := fun _ => inferInstanceAs (Decidable (∀ _ < _, _))

theorem transparent_of_runEnd {place : Nat} {bracket : Bracket} {isMember : Kind → Bool}
    (foreign : ∀ inner, place ≤ inner → inner < (script.runEnd isMember place).val →
      script.kindAt inner ≠ bracket.opening ∧ script.kindAt inner ≠ bracket.closing) :
    script.Transparent bracket place (script.runEnd isMember place).val := by
  by_cases member : script.kindAt place ≠ .endOfInput ∧ isMember (script.kindAt place) = true
  · rw [runEnd_of_member member.1 member.2] at foreign ⊢
    have ahead : place < (script.runEnd isMember (place + 1)).val :=
      (script.runEnd isMember (place + 1)).property
    have here := foreign place (Nat.le_refl place) ahead
    refine (Transparent.token member.1 here.1 here.2).trans ?_
    exact transparent_of_runEnd fun inner after before => foreign inner (Nat.le_of_succ_le after) before
  · rw [runEnd, dif_neg member]
    exact .refl place
termination_by script.size - place
decreasing_by
  have := lt_size_of_kindAt member.1
  omega

/-- The header of a function holds no braces, so its body is what the braces enclose. -/
theorem transparent_of_function {place : Nat} (headers : script.ClearHeaders)
    (begun : script.kindAt place = .keyword .funcWord) :
    script.Transparent .curly place (script.runEnd (· != .symbol .leftBrace) place).val := by
  refine transparent_of_runEnd fun inner after before => ?_
  have within {inside : Nat} (after : place ≤ inside) (before : inside ≤ inner) :
      script.kindAt inside ≠ .symbol .leftBrace := by
    have member := (member_of_runEnd after (Nat.lt_of_le_of_lt before ‹_›)).2
    simpa using member
  refine ⟨within after (Nat.le_refl inner), fun closed => ?_⟩
  have proper : script.kindAt inner ≠ .endOfInput := (member_of_runEnd after before).1
  have further : place < inner := by
    refine Nat.lt_of_le_of_ne after fun same => ?_
    rw [← same, begun] at closed
    cases closed
  obtain ⟨opening, earlier, later, opened⟩ :=
    headers place (lt_size_of_kindAt (by simp [begun])) begun inner (lt_size_of_kindAt proper)
      further closed
  exact within (Nat.le_of_lt later) (Nat.le_of_lt earlier) opened

/-- What is passed over leaves the nesting of braces. -/
theorem transparent_passable (nested : script.WellNested) (headers : script.ClearHeaders) :
    script.Passable (script.Transparent .curly) where
  refl := .refl
  trans := .trans
  token ordinary := Clear.token ordinary .curly
  enclosed _ _ _ found := nested.transparent (reaches_of_ok found) .curly
  header begun := transparent_of_function headers begun

end Onepass.Script
