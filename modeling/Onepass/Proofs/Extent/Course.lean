import Onepass.Proofs.Extent.Passing

/-! # The course of a statement

What an execution that ends normally shows about the places where a statement begins and ends. A
simple statement ends where it ends when passed over. A conditional or a loop consists of a header and
bodies, each of which was executed or passed over. The two can only come apart at a semicolon: passed
over, every statement takes in the semicolon that follows it, but executed, only a simple one does.
-/

set_option autoImplicit false

namespace Onepass

/-- Whether a statement that begins with a token of the kind is a block or has bodies. -/
def Kind.isCompound : Kind → Bool
  | .keyword .ifWord | .keyword .forWord | .keyword .whileWord | .symbol .leftBrace => true
  | _ => false

namespace Script

variable {script : Script} {running : Option DeclaredType} {place first header middle last : Nat}

/-- No expression goes on at the place. -/
abbrev Stops (script : Script) (place : Nat) : Prop :=
  (script.kindAt place).continuesExpression = false

/-- A part that was executed up to a place is passed over up to the same place, unless a semicolon
follows; then it may be passed over further. The first argument tells where the part ends when passed
over. -/
def Meets (script : Script) (passed : Nat → Prop) (last : Nat) : Prop :=
  script.Stops last →
    (script.kindAt last ≠ .symbol .semicolon → passed last) ∧
      (script.kindAt last = .symbol .semicolon → ∀ finish, passed finish → last ≤ finish)

theorem Meets.congr {passed other : Nat → Prop} (meets : script.Meets passed last)
    (same : ∀ finish, other finish ↔ passed finish) : script.Meets other last := by
  intro stops
  obtain ⟨here, further⟩ := meets stops
  exact ⟨fun open_ => (same last).mpr (here open_),
    fun ended finish reached => further ended finish ((same finish).mp reached)⟩

theorem Reaches.meets {relation : Nat → Nat → Prop}
    {partEnd : (place : Nat) → Except Diagnostic { next // relation place next }}
    (reached : Reaches partEnd first last) : script.Meets (Reaches partEnd first) last :=
  fun _ => ⟨fun _ => reached, fun _ _ other => Nat.le_of_eq (reached.unique other)⟩

/-- A body that was executed or passed over. -/
structure Passage (script : Script) (running : Option DeclaredType) (first last : Nat) : Prop where
  transparent : script.Transparent .curly first last
  braced : script.kindAt first = .symbol .leftBrace → Reaches script.bracesEnd first last
  meets : script.Meets (Reaches (script.bodyEnd running) first) last

/-- The later branches of a conditional. -/
inductive Branches (script : Script) (running : Option DeclaredType) : Nat → Nat → Prop
  | another {first header middle last : Nat} (begun : script.kindAt first = .keyword .elseIfWord)
      (condition : script.Enclosed .round (first + 1) header)
      (body : script.Passage running header middle) (others : Branches script running middle last) :
      Branches script running first last
  | otherwise {first last : Nat} (begun : script.kindAt first = .keyword .elseWord)
      (body : script.Passage running (first + 1) last) : Branches script running first last
  | finished {place : Nat} (notElseIf : script.kindAt place ≠ .keyword .elseIfWord)
      (notElse : script.kindAt place ≠ .keyword .elseWord) : Branches script running place place

/-- A statement that was executed and ended normally. -/
inductive Executed (script : Script) (running : Option DeclaredType) : Nat → Nat → Prop
  | simple {first last : Nat} (plain : (script.kindAt first).isCompound = false)
      (transparent : script.Transparent .curly first last)
      (ends : script.Stops last → Reaches (script.statementEnd running) first last) :
      Executed script running first last
  | conditional {first header middle last : Nat} (begun : script.kindAt first = .keyword .ifWord)
      (condition : script.Enclosed .round (first + 1) header)
      (body : script.Passage running header middle)
      (others : script.Branches running middle last) : Executed script running first last
  | loop {first header last : Nat}
      (begun : script.kindAt first = .keyword .forWord ∨ script.kindAt first = .keyword .whileWord)
      (condition : script.Enclosed .round (first + 1) header)
      (body : script.Passage running header last) : Executed script running first last
  | block {first last : Nat} (begun : script.kindAt first = .symbol .leftBrace)
      (ends : Reaches script.bracesEnd first last) : Executed script running first last

/-! ## Braces -/

theorem Branches.transparent (branches : script.Branches running first last) :
    script.Transparent .curly first last := by
  induction branches with
  | another begun condition body _ ih =>
      exact (Clear.token (by rw [begun]; rfl) .curly)
        |>.trans (condition.clear .curly) |>.trans body.transparent |>.trans ih
  | otherwise begun body => exact (Clear.token (by rw [begun]; rfl) .curly).trans body.transparent
  | finished _ _ => exact .refl _

/-- A statement that was executed holds as many closing braces as opening ones, in a proper order. -/
theorem Executed.transparent (executed : script.Executed running first last) :
    script.Transparent .curly first last := by
  cases executed with
  | simple _ transparent _ => exact transparent
  | conditional begun condition body others =>
      exact (Clear.token (by rw [begun]; rfl) .curly)
        |>.trans (condition.clear .curly) |>.trans body.transparent |>.trans others.transparent
  | loop begun condition body =>
      have ordinary : (script.kindAt first).isOrdinary = true := by
        rcases begun with begun | begun <;> rw [begun] <;> rfl
      exact (Clear.token ordinary .curly)
        |>.trans (condition.clear .curly) |>.trans body.transparent
  | block _ ends => exact .balanced ends

/-! ## The parts that are passed over -/

theorem bodyEnd_of_brace (begun : script.kindAt place = .symbol .leftBrace) :
    script.bodyEnd running place = script.bracesEnd place := by
  rw [bodyEnd, if_pos begun]

theorem bodyEnd_of_statement (single : script.kindAt place ≠ .symbol .leftBrace) :
    script.bodyEnd running place = script.statementEnd running place := by
  rw [bodyEnd, if_neg single]

theorem semicolonEnd_val {start : Nat} (next : Ahead start) :
    (script.semicolonEnd next).val =
      if script.kindAt next.val = .symbol .semicolon then next.val + 1 else next.val := by
  unfold semicolonEnd
  split <;> rfl

theorem reaches_statementEnd_iff (proper : script.kindAt first ≠ .symbol .semicolon) :
    Reaches (script.statementEnd running) first last ↔
      ∃ finish, Reaches (script.unterminatedEnd running) first finish ∧
        last = if script.kindAt finish = .symbol .semicolon then finish + 1 else finish := by
  constructor
  · rintro ⟨ahead, found⟩
    rw [statementEnd, if_neg proper] at found
    obtain ⟨finish, passed, ended⟩ := map_ok found
    refine ⟨finish.val, reaches_of_ok passed, ?_⟩
    rw [← semicolonEnd_val, ended]
  · rintro ⟨finish, ⟨ahead, passed⟩, rfl⟩
    have found : script.statementEnd running first = .ok (script.semicolonEnd ⟨finish, ahead⟩) := by
      rw [statementEnd, if_neg proper, passed]
      rfl
    have reached : Reaches (script.statementEnd running) first _ := reaches_of_ok found
    rwa [semicolonEnd_val] at reached

/-- A body and the branches after it, passed over between two places. -/
def ArmReaches (script : Script) (running : Option DeclaredType) (header finish : Nat) : Prop :=
  ∃ middle, Reaches (script.bodyEnd running) header middle ∧
    Reaches (script.branchesEnd running) middle finish

theorem reaches_conditional_iff (begun : script.kindAt first = .keyword .ifWord) :
    Reaches (script.unterminatedEnd running) first last ↔
      ∃ header, Reaches script.parenthesesEnd (first + 1) header ∧
        script.ArmReaches running header last := by
  rw [Reaches, unterminatedEnd]
  split
  case _ => exact finds_bind_iff fun _ => finds_bind_iff fun _ => finds_weaken_iff
  all_goals simp_all

theorem reaches_loop_iff
    (begun : script.kindAt first = .keyword .forWord ∨ script.kindAt first = .keyword .whileWord) :
    Reaches (script.unterminatedEnd running) first last ↔
      ∃ header, Reaches script.parenthesesEnd (first + 1) header ∧
        Reaches (script.bodyEnd running) header last := by
  have parts : script.unterminatedEnd running first = (do
      let header ← script.parenthesesEnd (first + 1)
      let body ← script.bodyEnd running header.val
      return ⟨body.val, Nat.lt_trans (Nat.lt_of_succ_lt header.property) body.property⟩) := by
    rw [unterminatedEnd]
    split
    all_goals first | rfl | simp_all
  rw [Reaches, parts]
  exact finds_bind_iff fun _ => finds_weaken_iff

theorem unterminatedEnd_of_brace (begun : script.kindAt place = .symbol .leftBrace) :
    script.unterminatedEnd running place = script.bracesEnd place := by
  rw [unterminatedEnd]
  split
  all_goals first | rfl | simp_all

theorem unterminatedEnd_of_dollar (begun : script.kindAt place = .symbol .dollar) :
    script.unterminatedEnd running place = script.declarationEnd place := by
  rw [unterminatedEnd]
  split
  all_goals first | rfl | simp_all

theorem unterminatedEnd_of_print
    (begun : script.kindAt place = .keyword .printWord ∨ script.kindAt place = .keyword .printlnWord) :
    script.unterminatedEnd running place = (do
      let arguments ← script.parenthesesEnd (place + 1)
      return ⟨arguments.val, Nat.lt_of_succ_lt arguments.property⟩) := by
  rw [unterminatedEnd]
  split
  all_goals first | rfl | simp_all

theorem unterminatedEnd_of_function (begun : script.kindAt place = .keyword .funcWord) :
    script.unterminatedEnd running place = (do
      let body ← script.bracesEnd (script.runEnd (· != .symbol .leftBrace) place).val
      return ⟨body.val, Nat.lt_of_le_of_lt
        (script.runEnd (· != .symbol .leftBrace) place).property body.property⟩) := by
  rw [unterminatedEnd]
  split
  all_goals first | rfl | simp_all

theorem unterminatedEnd_of_identifier (running : Option DeclaredType)
    (named : script.kindAt place = .identifier) :
    script.unterminatedEnd running place =
      if script.kindAt (place + 1) = .symbol .colon then script.declarationEnd place
      else if script.kindAt (place + 1) = .symbol .leftParen then do
        let arguments ← script.parenthesesEnd (place + 1)
        return ⟨arguments.val, Nat.lt_of_succ_lt arguments.property⟩
      else script.assignmentEnd place := by
  rw [unterminatedEnd]
  split
  all_goals first | rfl | simp_all

theorem reaches_another_iff (begun : script.kindAt first = .keyword .elseIfWord) :
    Reaches (script.branchesEnd running) first last ↔
      ∃ header, Reaches script.parenthesesEnd (first + 1) header ∧
        script.ArmReaches running header last := by
  rw [Reaches, branchesEnd, dif_pos begun]
  exact finds_bind_iff fun _ => finds_bind_iff fun _ => finds_weaken_iff

theorem reaches_otherwise_iff (begun : script.kindAt first = .keyword .elseWord) :
    Reaches (script.branchesEnd running) first last ↔
      Reaches (script.bodyEnd running) (first + 1) last := by
  rw [Reaches, branchesEnd, dif_neg (by simp [begun]), dif_pos begun]
  exact finds_weaken_iff

theorem reaches_finished (notElseIf : script.kindAt place ≠ .keyword .elseIfWord)
    (notElse : script.kindAt place ≠ .keyword .elseWord) :
    Reaches (script.branchesEnd running) place place := by
  refine ⟨Nat.le_refl place, ?_⟩
  rw [branchesEnd, dif_neg notElseIf, dif_neg notElse]
  rfl

theorem reaches_token {kind : Kind} (there : script.kindAt place = kind) :
    Reaches (script.tokenEnd kind) place (place + 1) :=
  ⟨Nat.lt_succ_self place, if_pos there⟩

theorem reaches_namedDeclarationEnd {finish : Nat} {type : DeclaredType}
    (named : script.kindAt place = .identifier) (colon : script.kindAt (place + 1) = .symbol .colon)
    (known : script.typeAt (place + 2) = .ok type)
    (equal : script.kindAt (place + 3) = .symbol .equal)
    (value : Reaches script.expressionEnd (place + 4) finish) :
    Reaches script.namedDeclarationEnd place finish := by
  refine Finds.bind (reaches_token named) fun _ => Finds.bind (reaches_token colon) fun _ => ?_
  rw [known]
  exact Finds.bind (reaches_token equal) fun _ => Finds.weaken value

theorem reaches_declarationEnd_of_dollar {finish : Nat} (there : script.kindAt place = .symbol .dollar)
    (named : Reaches script.namedDeclarationEnd (place + 1) finish) :
    Reaches script.declarationEnd place finish := by
  obtain ⟨ahead, found⟩ := named
  refine ⟨by omega, ?_⟩
  rw [declarationEnd, if_pos there, found]
  rfl

theorem reaches_declarationEnd_of_name {finish : Nat} (absent : script.kindAt place ≠ .symbol .dollar)
    (named : Reaches script.namedDeclarationEnd place finish) :
    Reaches script.declarationEnd place finish := by
  rwa [Reaches, declarationEnd, if_neg absent]

theorem reaches_indices (indexed : script.kindAt first = .symbol .leftBracket)
    (one : Reaches script.bracketsEnd first middle)
    (others : Reaches (assignmentEnd.indicesEnd script) middle last) :
    Reaches (assignmentEnd.indicesEnd script) first last := by
  rw [Reaches, assignmentEnd.indicesEnd, dif_pos indexed]
  exact Finds.bind one fun _ => Finds.weaken others

theorem reaches_noIndices (plain : script.kindAt place ≠ .symbol .leftBracket) :
    Reaches (assignmentEnd.indicesEnd script) place place := by
  refine ⟨Nat.le_refl place, ?_⟩
  rw [assignmentEnd.indicesEnd, dif_neg plain]
  rfl

theorem reaches_assignmentEnd_of_step {target : Nat}
    (indices : Reaches (assignmentEnd.indicesEnd script) (place + 1) target)
    (steps : (script.kindAt target).isStep = true) :
    Reaches script.assignmentEnd place (target + 1) := by
  refine Finds.bind indices fun _ => ?_
  rw [if_pos steps]
  exact ⟨_, rfl⟩

theorem reaches_assignmentEnd_of_value {target finish : Nat}
    (indices : Reaches (assignmentEnd.indicesEnd script) (place + 1) target)
    (noStep : (script.kindAt target).isStep = false)
    (assigns : (script.kindAt target).isAssignment = true)
    (value : Reaches script.expressionEnd (target + 1) finish) :
    Reaches script.assignmentEnd place finish := by
  refine Finds.bind indices fun _ => ?_
  rw [if_neg (by simp [noStep]), if_pos assigns]
  exact Finds.weaken value

/-! ## Executed and passed over -/

/-- A body and the branches after it. If there are any, they show where the body ends. -/
theorem Passage.followed (body : script.Passage running header middle)
    (others : script.Branches running middle last)
    (agreement : script.Meets (Reaches (script.branchesEnd running) middle) last) :
    script.Meets (script.ArmReaches running header) last := by
  have exactly (there : Reaches (script.bodyEnd running) header middle) :
      script.Meets (script.ArmReaches running header) last := by
    refine agreement.congr fun finish => ⟨?_, fun onwards => ⟨middle, there, onwards⟩⟩
    rintro ⟨bodyFinish, passed, onwards⟩
    rwa [there.unique passed]
  have continued {word : Keyword} (begun : script.kindAt middle = .keyword word)
      (stops : (Kind.keyword word).continuesExpression = false) :
      Reaches (script.bodyEnd running) header middle :=
    (body.meets (by rw [Stops, begun]; exact stops)).1 (by simp [begun])
  cases others with
  | another begun _ _ _ => exact exactly (continued begun rfl)
  | otherwise begun _ => exact exactly (continued begun rfl)
  | finished notElseIf notElse =>
      intro stops
      obtain ⟨here, further⟩ := body.meets stops
      refine ⟨fun open_ => ⟨_, here open_, reaches_finished notElseIf notElse⟩, ?_⟩
      rintro ended finish ⟨bodyFinish, passed, onward, _⟩
      exact Nat.le_trans (further ended bodyFinish passed) onward

/-- A header is evaluated and passed over alike, so it drops out of the comparison. -/
theorem Meets.headed {passed : Nat → Nat → Prop}
    (condition : script.Enclosed .round (first + 1) header)
    (meets : script.Meets (passed header) last) :
    script.Meets (fun finish =>
      ∃ header, Reaches script.parenthesesEnd (first + 1) header ∧ passed header finish) last := by
  have reached : Reaches script.parenthesesEnd (first + 1) header := condition.reaches
  refine meets.congr fun finish => ⟨?_, fun rest => ⟨header, reached, rest⟩⟩
  rintro ⟨other, read, rest⟩
  rwa [reached.unique read]

theorem Branches.meets (branches : script.Branches running first last) :
    script.Meets (Reaches (script.branchesEnd running) first) last := by
  induction branches with
  | another begun condition body others ih =>
      exact ((body.followed others ih).headed condition).congr fun _ => reaches_another_iff begun
  | otherwise begun body => exact body.meets.congr fun _ => reaches_otherwise_iff begun
  | finished notElseIf notElse => exact (reaches_finished notElseIf notElse).meets

/-- Without the semicolon after it, a conditional, a loop or a block is passed over as it was
executed, or further. -/
theorem Executed.compound_meets (executed : script.Executed running first last)
    (compound : (script.kindAt first).isCompound = true) :
    script.Meets (Reaches (script.unterminatedEnd running) first) last := by
  cases executed with
  | simple plain _ _ =>
      rw [plain] at compound
      cases compound
  | conditional begun condition body others =>
      exact ((body.followed others others.meets).headed condition).congr fun _ =>
        reaches_conditional_iff begun
  | loop begun condition body =>
      exact (body.meets.headed condition).congr fun _ => reaches_loop_iff begun
  | block begun ends =>
      refine Reaches.meets ?_
      rwa [Reaches, unterminatedEnd_of_brace begun]

theorem not_semicolon_of_compound (compound : (script.kindAt first).isCompound = true) :
    script.kindAt first ≠ .symbol .semicolon := by
  intro there
  rw [there] at compound
  cases compound

/-- A statement that was executed is passed over alike if and only if it is not a conditional, a loop
or a block with a semicolon after it. -/
theorem Executed.reaches_iff (executed : script.Executed running first last)
    (stops : script.Stops last) :
    Reaches (script.statementEnd running) first last ↔
      ¬ ((script.kindAt first).isCompound = true ∧ script.kindAt last = .symbol .semicolon) := by
  by_cases compound : (script.kindAt first).isCompound = true
  · obtain ⟨here, further⟩ := executed.compound_meets compound stops
    rw [reaches_statementEnd_iff (not_semicolon_of_compound compound)]
    by_cases ended : script.kindAt last = .symbol .semicolon
    · refine iff_of_false ?_ (not_not_intro ⟨compound, ended⟩)
      rintro ⟨finish, passed, same⟩
      have beyond := further ended finish passed
      split at same
      · omega
      case _ open_ =>
        rw [same] at ended
        exact open_ ended
    · refine iff_of_true ⟨last, here ended, (if_neg ended).symm⟩ fun both => ended both.2
  · refine iff_of_true ?_ fun both => compound both.1
    cases executed with
    | simple _ _ ends => exact ends stops
    | conditional begun _ _ _ => exact absurd (by rw [begun]; rfl) compound
    | loop begun _ _ =>
        refine absurd ?_ compound
        rcases begun with begun | begun <;> rw [begun] <;> rfl
    | block begun _ => exact absurd (by rw [begun]; rfl) compound

/-- The same for a statement that is the body of another one: only the semicolon can make a
difference. -/
theorem Executed.meets (executed : script.Executed running first last) :
    script.Meets (Reaches (script.statementEnd running) first) last := by
  intro stops
  refine ⟨fun open_ => (executed.reaches_iff stops).mpr fun both => open_ both.2, ?_⟩
  intro ended finish passed
  by_cases compound : (script.kindAt first).isCompound = true
  · obtain ⟨unterminated, reached, same⟩ :=
      (reaches_statementEnd_iff (not_semicolon_of_compound compound)).mp passed
    have beyond := (executed.compound_meets compound stops).2 ended unterminated reached
    split at same <;> omega
  · have here := (executed.reaches_iff stops).mpr fun both => compound both.1
    exact Nat.le_of_eq (here.unique passed)

end Script

end Onepass
