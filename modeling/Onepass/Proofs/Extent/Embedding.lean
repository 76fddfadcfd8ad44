import Mathlib.Data.Option.Basic
import Onepass.Proofs.Lockstep.Basic

/-! # A script inside another one

A script can lie inside another one, at other places and with other positions, and the other one may
go on where the first one ends. A look that finds the end of the first script finds the beginning of a
statement in the second, and no part of a script takes such a token for its own: a part that ends in
the first script ends at the same place in the second. The one exception is a `return` at the very end
inside a function that must give a value, so what follows a `return` is asked for.
-/

set_option autoImplicit false

namespace Onepass

/-- The kinds of token that a statement can begin with, other than a semicolon. -/
def Kind.statementStarts : List Kind :=
  [.keyword .printWord, .keyword .printlnWord, .keyword .ifWord, .keyword .forWord,
    .keyword .whileWord, .keyword .funcWord, .keyword .returnWord, .keyword .breakWord,
    .keyword .continueWord, .symbol .leftBrace, .symbol .dollar, .identifier]

/-- How one script, or a part of it, lies inside another one. -/
structure Embedding where
  /-- The positions that count as the same. -/
  positions : Position → Position → Prop
  /-- The places that correspond. -/
  places : Nat → Nat → Prop
  /-- Where the first script ends although the second one goes on. Of a look that is refused there,
  nothing is asked in the second one. -/
  ends : Position → Prop
  /-- What the function that is running may return. -/
  running : Option DeclaredType → Prop

namespace Embedding

variable {α β γ δ : Type}

/-- Tokens at the same place: alike, or the end of the first script and the beginning of a statement
behind it. -/
inductive Sees (embedding : Embedding) (token twin : Token) : Prop
  | alike (same : Token.Alike embedding.positions token twin)
  | beyond (ends : embedding.ends token.position) (ended : token.kind = .endOfInput)
      (starts : twin.kind ∈ Kind.statementStarts)

/-- The first script lies inside the second one. -/
structure Embeds (embedding : Embedding) (left right : Script) : Prop where
  token : ∀ {place twin}, embedding.places place twin →
    embedding.Sees (left.tokenAt place) (right.tokenAt twin)
  next : ∀ {place twin}, embedding.places place twin → left.kindAt place ≠ .endOfInput →
    embedding.places (place + 1) (twin + 1)
  previous : ∀ {place twin further beyond}, embedding.places place twin →
    embedding.places further beyond → place < further → embedding.places (further - 1) (beyond - 1)
  ordered : ∀ {place twin other partner}, embedding.places place twin →
    embedding.places other partner → (twin < partner ↔ place < other)
  returns : ∀ {place twin running}, embedding.places place twin → embedding.running running →
    left.kindAt place = .keyword .returnWord →
      right.returnHasValue running (right.tokenAt twin).position.line (twin + 1) =
        left.returnHasValue running (left.tokenAt place).position.line (place + 1)

/-- A look at the first script and the same look at the second one: both find something, or both are
refused alike, or the first one is refused where its script ends and the second one goes on. -/
inductive Looks (embedding : Embedding) (results : α → β → Prop) :
    Except Diagnostic α → Except Diagnostic β → Prop
  | found {result : α} {twin : β} (same : results result twin) :
      Looks embedding results (.ok result) (.ok twin)
  | refused {first second : Position} (cause : Cause) (near : embedding.positions first second) :
      Looks embedding results (.error ⟨cause, first⟩) (.error ⟨cause, second⟩)
  | excused {cause : Cause} {position : Position} {twin : Except Diagnostic β}
      (ends : embedding.ends position) : Looks embedding results (.error ⟨cause, position⟩) twin

/-- The same place in both scripts. -/
def SamePlace (embedding : Embedding) {first second : Nat → Prop} (place : Subtype first)
    (twin : Subtype second) : Prop :=
  embedding.places place.val twin.val

variable {embedding : Embedding}

namespace Looks

variable {results : α → β → Prop} {others : γ → δ → Prop}

theorem bind {result : Except Diagnostic α} {twin : Except Diagnostic β}
    {next : α → Except Diagnostic γ} {following : β → Except Diagnostic δ}
    (first : embedding.Looks results result twin)
    (rest : ∀ {value other}, results value other →
      embedding.Looks others (next value) (following other)) :
    embedding.Looks others (result >>= next) (twin >>= following) := by
  cases first with
  | found same => exact rest same
  | refused cause near => exact .refused cause near
  | excused ends => exact .excused ends

theorem map {start begin finish stop : Nat → Prop} {result : Except Diagnostic (Subtype start)}
    {twin : Except Diagnostic (Subtype begin)} {next : Subtype start → Subtype finish}
    {following : Subtype begin → Subtype stop}
    (first : embedding.Looks embedding.SamePlace result twin)
    (kept : ∀ place reached, embedding.places place.val reached.val →
      embedding.SamePlace (next place) (following reached)) :
    embedding.Looks embedding.SamePlace (result.map next) (twin.map following) := by
  cases first with
  | found same => exact .found (kept _ _ same)
  | refused cause near => exact .refused cause near
  | excused ends => exact .excused ends

/-- The place both looks reach stays the same when less is kept of how far ahead it lies. -/
theorem weaken {start begin finish stop : Nat → Prop} {result : Except Diagnostic (Subtype start)}
    {twin : Except Diagnostic (Subtype begin)} {kept : ∀ place : Subtype start, finish place.val}
    {held : ∀ place : Subtype begin, stop place.val}
    (first : embedding.Looks embedding.SamePlace result twin) :
    embedding.Looks embedding.SamePlace
      (result >>= fun place => (pure ⟨place.val, kept place⟩ : Except Diagnostic (Subtype finish)))
      (twin >>= fun place => (pure ⟨place.val, held place⟩ : Except Diagnostic (Subtype stop))) :=
  first.bind fun same => .found same

end Looks

namespace Embeds

variable {left right : Script} (embeds : embedding.Embeds left right) {place twin : Nat}

include embeds

/-! ## Single tokens -/

/-- A test that takes no beginning of a statement for anything but the end of the script comes out the
same in both scripts. -/
theorem blind (test : Kind → α)
    (indifferent : ∀ kind ∈ Kind.statementStarts, test kind = test .endOfInput)
    (paired : embedding.places place twin) :
    test (right.kindAt twin) = test (left.kindAt place) := by
  cases embeds.token paired with
  | alike same => exact congrArg test same.kind.symm
  | beyond _ ended starts =>
      rw [Script.kindAt, Script.kindAt, ended]
      exact indifferent _ starts

/-- A token that begins no statement is found in both scripts or in neither. -/
theorem follows {wanted : Kind} (proper : wanted ≠ .endOfInput)
    (no : wanted ∉ Kind.statementStarts) (paired : embedding.places place twin) :
    (right.kindAt twin = wanted) = (left.kindAt place = wanted) := by
  apply embeds.blind (· = wanted) _ paired
  intro kind starts
  have other : kind ≠ wanted := fun same => no (same ▸ starts)
  simp [other, proper.symm]

theorem alike (paired : embedding.places place twin) (proper : left.kindAt place ≠ .endOfInput) :
    Token.Alike embedding.positions (left.tokenAt place)
      (right.tokenAt twin) := by
  cases embeds.token paired with
  | alike same => exact same
  | beyond _ ended _ => exact absurd ended proper

theorem kind (paired : embedding.places place twin) (proper : left.kindAt place ≠ .endOfInput) :
    right.kindAt twin = left.kindAt place :=
  (embeds.alike paired proper).kind.symm

/-- Both looks are refused for what they find at the same place. -/
theorem fault {results : α → β → Prop} (paired : embedding.places place twin) {cause other : Cause}
    (same : Token.Alike embedding.positions (left.tokenAt place)
      (right.tokenAt twin) → other = cause) :
    embedding.Looks results (.error (left.fault cause place))
      (.error (right.fault other twin)) := by
  cases embeds.token paired with
  | alike alike =>
      rw [same alike]
      exact .refused cause alike.position
  | beyond ends _ _ => exact .excused ends

theorem tokenEnd (wanted : Kind) (proper : wanted ≠ .endOfInput)
    (paired : embedding.places place twin) :
    embedding.Looks embedding.SamePlace (left.tokenEnd wanted place)
      (right.tokenEnd wanted twin) := by
  cases embeds.token paired with
  | alike alike =>
      unfold Script.tokenEnd
      have same : right.kindAt twin = left.kindAt place := alike.kind.symm
      rw [same]
      split
      case _ found => exact .found (embeds.next paired (found ▸ proper))
      case _ => exact .refused _ alike.position
  | beyond ends ended _ =>
      unfold Script.tokenEnd
      rw [if_neg (by rw [Script.kindAt, ended]; exact proper.symm)]
      exact .excused ends

theorem typeAt (paired : embedding.places place twin) :
    embedding.Looks (fun type other => type = other ∧ embedding.places (place + 1) (twin + 1))
      (left.typeAt place) (right.typeAt twin) := by
  cases embeds.token paired with
  | alike alike =>
      unfold Script.typeAt
      dsimp only
      rw [← alike.kind, ← alike.word]
      split
      case _ isType =>
        have proper : left.kindAt place ≠ .endOfInput := by
          intro ended
          simp [show (left.tokenAt place).kind = .endOfInput from ended, Kind.isType] at isType
        split
        · exact .found ⟨rfl, embeds.next paired proper⟩
        · exact .refused _ alike.position
      case _ => exact .refused _ alike.position
  | beyond ends ended _ =>
      unfold Script.typeAt
      dsimp only
      rw [if_neg (by simp [ended, Kind.isType])]
      exact .excused ends

/-! ## Brackets and runs -/

theorem nestedEnd (opening closing : Kind) (depth : Nat) (paired : embedding.places place twin) :
    embedding.Looks embedding.SamePlace (left.nestedEnd opening closing depth place)
      (right.nestedEnd opening closing depth twin) := by
  fun_induction Script.nestedEnd left opening closing depth place generalizing twin with
  | case1 =>
      rw [Script.nestedEnd]
      exact .found paired
  | case2 place outer ended =>
      cases embeds.token paired with
      | alike alike =>
          have same : right.kindAt twin = .endOfInput :=
            alike.kind.symm.trans ended
          rw [Script.nestedEnd, dif_pos same]
          exact .refused _ alike.position
      | beyond ends _ _ => exact .excused ends
  | case3 place outer proper deeper =>
      rename_i ih
      have same := embeds.kind paired proper
      rw [Script.nestedEnd, dif_neg (by rwa [same])]
      dsimp only
      rw [same]
      exact (ih (embeds.next paired proper)).map fun _ _ paired => paired

theorem balancedEnd (opening closing : Kind) (proper : opening ≠ .endOfInput)
    (paired : embedding.places place twin) :
    embedding.Looks embedding.SamePlace (left.balancedEnd opening closing place)
      (right.balancedEnd opening closing twin) := by
  apply (embeds.tokenEnd opening proper paired).bind
  intro opened _ paired
  exact (embeds.nestedEnd opening closing 1 paired).weaken

theorem parenthesesEnd (paired : embedding.places place twin) :
    embedding.Looks embedding.SamePlace (left.parenthesesEnd place)
      (right.parenthesesEnd twin) :=
  embeds.balancedEnd _ _ (by simp) paired

theorem bracketsEnd (paired : embedding.places place twin) :
    embedding.Looks embedding.SamePlace (left.bracketsEnd place)
      (right.bracketsEnd twin) :=
  embeds.balancedEnd _ _ (by simp) paired

theorem bracesEnd (paired : embedding.places place twin) :
    embedding.Looks embedding.SamePlace (left.bracesEnd place)
      (right.bracesEnd twin) :=
  embeds.balancedEnd _ _ (by simp) paired

/-- A run of tokens ends at the same place, unless it goes on behind the end of the first script. -/
theorem runEnd (isMember : Kind → Bool) (paired : embedding.places place twin) :
    embedding.SamePlace (left.runEnd isMember place)
        (right.runEnd isMember twin) ∨
      embedding.ends (left.tokenAt (left.runEnd isMember place).val).position ∧
        left.kindAt (left.runEnd isMember place).val = .endOfInput ∧
          ∃ kind ∈ Kind.statementStarts, isMember kind = true := by
  fun_induction Script.runEnd left isMember place generalizing twin with
  | case1 place member next =>
      rename_i ih
      have same := embeds.kind paired member.1
      rw [Script.runEnd.eq_def right, dif_pos (by rwa [same])]
      exact ih (embeds.next paired member.1)
  | case2 place outside =>
      cases embeds.token paired with
      | alike alike =>
          have same : right.kindAt twin = left.kindAt place := alike.kind.symm
          rw [Script.runEnd.eq_def right, dif_neg (by rwa [same])]
          exact .inl paired
      | beyond ends ended starts =>
          by_cases member : isMember (right.kindAt twin) = true
          · exact .inr ⟨ends, ended, _, starts, member⟩
          · rw [Script.runEnd.eq_def right, dif_neg (fun holds => member holds.2)]
            exact .inl paired

theorem blindRunEnd {isMember : Kind → Bool}
    (none : ∀ kind ∈ Kind.statementStarts, isMember kind = false)
    (paired : embedding.places place twin) :
    embedding.SamePlace (left.runEnd isMember place)
      (right.runEnd isMember twin) := by
  rcases embeds.runEnd isMember paired with same | ⟨_, _, kind, starts, member⟩
  · exact same
  · rw [none kind starts] at member
    cases member

/-! ## Expressions -/

theorem operandEnd (paired : embedding.places place twin) :
    embedding.Looks embedding.SamePlace (left.operandEnd place)
      (right.operandEnd twin) := by
  by_cases ended : left.kindAt place = .endOfInput
  · have refused : left.operandEnd place =
        .error (left.fault (.unexpectedToken .endOfInput) place) := by
      simp [Script.operandEnd, ended]
    cases embeds.token paired with
    | alike alike =>
        have same : right.kindAt twin = .endOfInput :=
          alike.kind.symm.trans ended
        rw [refused]
        simp only [Script.operandEnd, same]
        exact .refused _ alike.position
    | beyond ends _ _ =>
        rw [refused]
        exact .excused ends
  · have after := embeds.next paired ended
    unfold Script.operandEnd
    dsimp only
    rw [embeds.kind paired ended]
    split
    · exact .found after
    · exact .found after
    · exact .found after
    · exact .found after
    · exact .found (embeds.blindRunEnd (by decide) after)
    · exact .found (embeds.blindRunEnd (by decide) after)
    · exact embeds.parenthesesEnd paired
    · exact embeds.bracketsEnd paired
    · have same : (right.kindAt (twin + 1) = .symbol .leftParen) =
          (left.kindAt (place + 1) = .symbol .leftParen) :=
        embeds.follows (by simp) (by decide) after
      simp only [same]
      split
      · exact (embeds.parenthesesEnd after).map fun _ _ paired => paired
      · exact .found after
    · exact (embeds.tokenEnd _ (by simp) after).map fun _ _ paired => paired
    · exact embeds.fault paired fun _ => rfl

theorem suffixEnd (paired : embedding.places place twin) :
    Option.Rel (embedding.Looks embedding.SamePlace) (left.suffixEnd? place)
      (right.suffixEnd? twin) := by
  cases embeds.token paired with
  | beyond _ ended starts =>
      have nothing : left.suffixEnd? place = none := by
        simp [Script.suffixEnd?, Script.kindAt, ended]
      have neither : right.suffixEnd? twin = none := by
        unfold Script.suffixEnd? Script.kindAt
        generalize (right.tokenAt twin).kind = kind at starts
        revert starts
        simp only [Kind.statementStarts, List.mem_cons, List.not_mem_nil, or_false]
        rintro (rfl | rfl | rfl | rfl | rfl | rfl | rfl | rfl | rfl | rfl | rfl | rfl) <;> rfl
      rw [nothing, neither]
      exact .none
  | alike alike =>
      have same : right.kindAt twin = left.kindAt place := alike.kind.symm
      -- The type that has to follow `is` and `as`.
      have type (after : embedding.places (place + 1) (twin + 1)) :
          Option.Rel (embedding.Looks embedding.SamePlace)
            (if (left.kindAt (place + 1)).isType then
              some (.ok ⟨place + 2, Nat.lt_add_of_pos_right (by decide)⟩)
            else some (.error (left.fault (.unsupportedType (left.tokenAt (place + 1)).shown)
              (place + 1))) : Option (Except Diagnostic (Ahead place)))
            (if (right.kindAt (twin + 1)).isType then
              some (.ok ⟨twin + 2, Nat.lt_add_of_pos_right (by decide)⟩)
            else some (.error (right.fault
              (.unsupportedType (right.tokenAt (twin + 1)).shown)
              (twin + 1))) :
              Option (Except Diagnostic (Ahead twin))) := by
        have known : (right.kindAt (twin + 1)).isType =
            (left.kindAt (place + 1)).isType :=
          embeds.blind Kind.isType (by decide) after
        rw [known]
        split
        case _ isType =>
          have proper : left.kindAt (place + 1) ≠ .endOfInput := by
            intro ended
            simp [ended, Kind.isType] at isType
          exact .some (.found (embeds.next after proper))
        case _ =>
          exact .some (embeds.fault after fun alike => by rw [alike.shown])
      unfold Script.suffixEnd?
      rw [same]
      split
      · exact .some (embeds.bracketsEnd paired)
      · case _ known =>
        have after := embeds.next paired (by simp [known])
        exact .some ((embeds.tokenEnd _ (by simp) after).map fun _ _ paired => paired)
      · case _ known => exact type (embeds.next paired (by simp [known]))
      · case _ known => exact type (embeds.next paired (by simp [known]))
      · exact .none

theorem suffixesEnd (paired : embedding.places place twin) :
    embedding.Looks embedding.SamePlace (left.suffixesEnd place)
      (right.suffixesEnd twin) := by
  fun_induction Script.suffixesEnd left place generalizing twin with
  | case1 place none =>
      have both := embeds.suffixEnd paired
      rw [none] at both
      rw [Script.suffixesEnd]
      split
      · exact .found paired
      · case _ follows => rw [follows] at both; cases both
  | case2 place result follows ih =>
      have both := embeds.suffixEnd paired
      rw [follows] at both
      rw [Script.suffixesEnd.eq_def right]
      split
      · case _ none => rw [none] at both; cases both
      · case _ other same =>
        rw [same] at both
        cases both with
        | some ends =>
            apply ends.bind
            intro next _ paired
            exact (ih next paired).weaken

theorem expressionEnd (paired : embedding.places place twin) :
    embedding.Looks embedding.SamePlace (left.expressionEnd place)
      (right.expressionEnd twin) := by
  fun_induction Script.expressionEnd left place generalizing twin with
  | case1 place operand =>
      rename_i ih
      rw [Script.expressionEnd.eq_def right]
      have reached : embedding.SamePlace operand
          (right.runEnd (fun kind => kind.unary?.isSome) twin) :=
        embeds.blindRunEnd (by decide) paired
      apply (embeds.operandEnd reached).bind
      intro primary _ paired
      apply (embeds.suffixesEnd paired).bind
      intro finish other paired
      dsimp only
      have same : (right.kindAt other.val).binary?.isSome =
          (left.kindAt finish.val).binary?.isSome :=
        embeds.blind (fun kind => kind.binary?.isSome) (by decide) paired
      simp only [same]
      split
      case _ joined =>
        have proper : left.kindAt finish.val ≠ .endOfInput := by
          intro ended
          simp [ended, Kind.binary?] at joined
        exact (ih primary finish joined (embeds.next paired proper)).weaken
      case _ => exact .found paired

/-! ## Declarations and assignments -/

theorem namedDeclarationEnd (paired : embedding.places place twin) :
    embedding.Looks embedding.SamePlace (left.namedDeclarationEnd place)
      (right.namedDeclarationEnd twin) := by
  apply (embeds.tokenEnd .identifier (by simp) paired).bind
  intro name _ paired
  apply (embeds.tokenEnd (.symbol .colon) (by simp) paired).bind
  intro colon _ paired
  apply (embeds.typeAt paired).bind
  rintro type _ ⟨rfl, paired⟩
  apply (embeds.tokenEnd (.symbol .equal) (by simp) paired).bind
  intro equal _ paired
  exact (embeds.expressionEnd paired).weaken

/-- At a place where the first script has a token, it declares alike. -/
theorem declarationEnd (paired : embedding.places place twin)
    (proper : left.kindAt place ≠ .endOfInput) :
    embedding.Looks embedding.SamePlace (left.declarationEnd place)
      (right.declarationEnd twin) := by
  unfold Script.declarationEnd
  rw [embeds.kind paired proper]
  split
  · exact (embeds.namedDeclarationEnd (embeds.next paired proper)).map
      fun _ _ paired => paired
  · exact embeds.namedDeclarationEnd paired

theorem indicesEnd (paired : embedding.places place twin) :
    embedding.Looks embedding.SamePlace (Script.assignmentEnd.indicesEnd left place)
      (Script.assignmentEnd.indicesEnd right twin) := by
  have same {place twin : Nat} (paired : embedding.places place twin) :
      (right.kindAt twin = .symbol .leftBracket) =
        (left.kindAt place = .symbol .leftBracket) :=
    embeds.follows (by simp) (by decide) paired
  fun_induction Script.assignmentEnd.indicesEnd left place generalizing twin with
  | case1 place indexed ih =>
      rw [Script.assignmentEnd.indicesEnd.eq_def right, dif_pos (by rwa [same paired])]
      apply (embeds.bracketsEnd paired).bind
      intro next _ paired
      exact (ih next paired).weaken
  | case2 place other =>
      rw [Script.assignmentEnd.indicesEnd.eq_def right, dif_neg (by rwa [same paired])]
      exact .found paired

theorem assignmentEnd (paired : embedding.places (place + 1) (twin + 1)) :
    embedding.Looks embedding.SamePlace (left.assignmentEnd place)
      (right.assignmentEnd twin) := by
  apply (embeds.indicesEnd paired).bind
  intro target reached paired
  have steps : (right.kindAt reached.val).isStep =
      (left.kindAt target.val).isStep := embeds.blind Kind.isStep (by decide) paired
  have assigns : (right.kindAt reached.val).isAssignment =
      (left.kindAt target.val).isAssignment := embeds.blind Kind.isAssignment (by decide) paired
  have proper (named : left.kindAt target.val = .endOfInput → False) :
      embedding.places (target.val + 1) (reached.val + 1) := embeds.next paired named
  simp only [steps, assigns]
  split
  case _ stepped =>
    exact .found (proper fun ended => by simp [ended, Kind.isStep] at stepped)
  case _ =>
    split
    case _ assigned =>
      have after := proper fun ended => by simp [ended, Kind.isAssignment] at assigned
      exact (embeds.expressionEnd after).weaken
    case _ =>
      apply embeds.fault paired
      intro alike
      rw [Script.kindAt, ← alike.kind]
      rfl

theorem semicolonEnd {start begin : Nat} (finish : Ahead start) {other : Ahead begin}
    (same : embedding.SamePlace finish other) :
    embedding.SamePlace (left.semicolonEnd finish) (right.semicolonEnd other) := by
  have follows : (right.kindAt other.val = .symbol .semicolon) =
      (left.kindAt finish.val = .symbol .semicolon) :=
    embeds.follows (by simp) (by decide) same
  unfold Script.semicolonEnd
  simp only [follows]
  split
  case _ there => exact embeds.next same (by simp [there])
  case _ => exact same

/-! ## Statements -/

variable {running : Option DeclaredType}

omit embeds in
/-- No statement begins at the end of a script. -/
theorem unterminatedEnd_of_ended {script : Script} (ended : script.kindAt place = .endOfInput) :
    script.unterminatedEnd running place = .error (script.fault .statementStart place) := by
  rw [Script.unterminatedEnd]
  split <;> simp_all

/-- The body of a function is looked for behind the first brace, and a script without a brace is
refused. -/
theorem functionBodyEnd (paired : embedding.places place twin) :
    embedding.Looks embedding.SamePlace
      (left.bracesEnd (left.runEnd (· != .symbol .leftBrace) place).val)
      (right.bracesEnd
        (right.runEnd (· != .symbol .leftBrace) twin).val) := by
  rcases embeds.runEnd (· != .symbol .leftBrace) paired with reached | ⟨ends, stopped, _⟩
  · exact embeds.bracesEnd reached
  · have refused : left.bracesEnd (left.runEnd (· != .symbol .leftBrace) place).val =
        .error (left.fault (.expected (.symbol .leftBrace) .endOfInput)
          (left.runEnd (· != .symbol .leftBrace) place).val) := by
      simp [Script.bracesEnd, Script.balancedEnd, Script.tokenEnd, stopped, bind, Except.bind]
    rw [refused]
    exact .excused ends

mutual

theorem unterminatedEnd (allowed : embedding.running running) (place twin : Nat)
    (paired : embedding.places place twin) :
    embedding.Looks embedding.SamePlace (left.unterminatedEnd running place)
      (right.unterminatedEnd running twin) := by
  by_cases ended : left.kindAt place = .endOfInput
  · rw [unterminatedEnd_of_ended ended]
    cases embeds.token paired with
    | alike alike =>
        have same : right.kindAt twin = .endOfInput :=
          alike.kind.symm.trans ended
        rw [unterminatedEnd_of_ended same]
        exact .refused _ alike.position
    | beyond ends _ _ => exact .excused ends
  · have here : place < left.size := Script.lt_size_of_kindAt ended
    have after := embeds.next paired ended
    -- The header of a loop or a conditional, and its body.
    have guarded : embedding.Looks embedding.SamePlace
        (left.parenthesesEnd (place + 1) >>= fun header =>
          left.bodyEnd running header.val >>= fun body =>
            (pure ⟨body.val, Nat.lt_trans (Nat.lt_of_succ_lt header.property) body.property⟩ :
              Except Diagnostic (Ahead place)))
        (right.parenthesesEnd (twin + 1) >>= fun header =>
          right.bodyEnd running header.val >>= fun body =>
            (pure ⟨body.val, Nat.lt_trans (Nat.lt_of_succ_lt header.property) body.property⟩ :
              Except Diagnostic (Ahead twin))) := by
      apply (embeds.parenthesesEnd after).bind
      intro header _ paired
      exact (bodyEnd allowed header.val _ paired).weaken
    have arguments := embeds.parenthesesEnd after
    have same := embeds.kind paired ended
    rw [Script.unterminatedEnd, Script.unterminatedEnd]
    generalize right.kindAt twin = kind at same
    subst same
    split
    case _ begun =>
      apply (embeds.parenthesesEnd after).bind
      intro condition _ paired
      apply (bodyEnd allowed condition.val _ paired).bind
      intro body _ paired
      exact (branchesEnd allowed body.val _ paired).weaken
    case _ => exact guarded
    case _ => exact guarded
    case _ => exact (embeds.functionBodyEnd paired).weaken
    case _ => exact embeds.bracesEnd paired
    case _ => exact arguments.weaken
    case _ => exact arguments.weaken
    case _ => exact .found after
    case _ => exact .found after
    case _ begun =>
      rw [embeds.returns paired allowed begun]
      split
      · exact (embeds.expressionEnd after).weaken
      · exact .found after
    case _ => exact embeds.declarationEnd paired ended
    case _ =>
      have follows (mark : Symbol) (no : .symbol mark ∉ Kind.statementStarts) :
          (right.kindAt (twin + 1) = .symbol mark) =
            (left.kindAt (place + 1) = .symbol mark) :=
        embeds.follows (by simp) no after
      simp only [follows .colon (by decide), follows .leftParen (by decide)]
      split
      · exact embeds.declarationEnd paired ended
      · split
        · exact arguments.weaken
        · exact embeds.assignmentEnd after
    case _ => exact embeds.fault paired fun _ => rfl
termination_by (left.size - place, 0)
decreasing_by
  all_goals
    simp only [Prod.lex_def]
    omega

theorem statementEnd (allowed : embedding.running running) (place twin : Nat)
    (paired : embedding.places place twin) :
    embedding.Looks embedding.SamePlace (left.statementEnd running place)
      (right.statementEnd running twin) := by
  have same : (right.kindAt twin = .symbol .semicolon) =
      (left.kindAt place = .symbol .semicolon) :=
    embeds.follows (by simp) (by decide) paired
  rw [Script.statementEnd, Script.statementEnd]
  simp only [same]
  split
  case _ there => exact .found (embeds.next paired (by simp [there]))
  case _ =>
    exact (unterminatedEnd allowed place _ paired).map fun finish _ paired =>
      embeds.semicolonEnd finish paired
termination_by (left.size - place, 1)

/-- Where the first script is at its end, what begins there in the second one does not matter. -/
theorem bodyEnd (allowed : embedding.running running) (place twin : Nat)
    (paired : embedding.places place twin) :
    embedding.Looks embedding.SamePlace (left.bodyEnd running place)
      (right.bodyEnd running twin) := by
  rw [Script.bodyEnd, Script.bodyEnd]
  cases embeds.token paired with
  | alike alike =>
      have same : right.kindAt twin = left.kindAt place := alike.kind.symm
      rw [same]
      split
      · exact embeds.bracesEnd paired
      · exact statementEnd allowed place _ paired
  | beyond ends ended _ =>
      have atEnd : left.kindAt place = .endOfInput := ended
      rw [if_neg (by simp [atEnd])]
      rw [Script.statementEnd, if_neg (by simp [atEnd]), unterminatedEnd_of_ended atEnd]
      exact .excused ends
termination_by (left.size - place, 2)

theorem branchesEnd (allowed : embedding.running running) (place twin : Nat)
    (paired : embedding.places place twin) :
    embedding.Looks embedding.SamePlace (left.branchesEnd running place)
      (right.branchesEnd running twin) := by
  have same (word : Keyword) (no : .keyword word ∉ Kind.statementStarts) :
      (right.kindAt twin = .keyword word) =
        (left.kindAt place = .keyword word) := embeds.follows (by simp) no paired
  rw [Script.branchesEnd, Script.branchesEnd]
  simp only [same .elseIfWord (by decide), same .elseWord (by decide)]
  split
  case _ begun =>
    have proper : left.kindAt place ≠ .endOfInput := by simp [begun]
    have here : place < left.size := Script.lt_size_of_kindAt proper
    apply (embeds.parenthesesEnd (embeds.next paired proper)).bind
    intro condition _ paired
    apply (bodyEnd allowed condition.val _ paired).bind
    intro body _ paired
    exact (branchesEnd allowed body.val _ paired).weaken
  case _ =>
    split
    case _ begun =>
      have proper : left.kindAt place ≠ .endOfInput := by simp [begun]
      have here : place < left.size := Script.lt_size_of_kindAt proper
      exact (bodyEnd allowed (place + 1) _ (embeds.next paired proper)).weaken
    case _ => exact .found paired
termination_by (left.size - place, 0)
decreasing_by
  all_goals
    simp only [Prod.lex_def]
    omega

end

end Embeds

end Embedding

end Onepass
