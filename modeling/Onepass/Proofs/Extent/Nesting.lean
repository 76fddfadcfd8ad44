import Onepass.Script.Extent

/-! # Matching brackets

Passing over something in brackets counts the brackets of one pair only. A part of a script is
transparent for a pair if this count comes out of it as it went in. Where all brackets of a script
are properly nested, whatever stands between two matching ones is transparent for every pair.
-/

set_option autoImplicit false

namespace Onepass

/-- The pairs of brackets. -/
inductive Bracket where
  | round | square | curly
  deriving DecidableEq, Repr

namespace Bracket

/-- The symbol that opens the pair. -/
def openingMark : Bracket → Symbol
  | .round => .leftParen
  | .square => .leftBracket
  | .curly => .leftBrace

/-- The symbol that closes the pair. -/
def closingMark : Bracket → Symbol
  | .round => .rightParen
  | .square => .rightBracket
  | .curly => .rightBrace

/-- The kind of the opening token. -/
def opening (bracket : Bracket) : Kind :=
  .symbol bracket.openingMark

/-- The kind of the closing token. -/
def closing (bracket : Bracket) : Kind :=
  .symbol bracket.closingMark

/-- Closes the innermost open bracket, which has to be of the given pair. -/
def close (bracket : Bracket) : List Bracket → Option (List Bracket)
  | [] => none
  | innermost :: outer => if innermost = bracket then some outer else none

/-- The open brackets after a token, innermost first, or nothing if the token closes another bracket
than the innermost one. -/
def step (stack : List Bracket) : Kind → Option (List Bracket)
  | .symbol .leftParen => some (.round :: stack)
  | .symbol .leftBracket => some (.square :: stack)
  | .symbol .leftBrace => some (.curly :: stack)
  | .symbol .rightParen => close .round stack
  | .symbol .rightBracket => close .square stack
  | .symbol .rightBrace => close .curly stack
  | _ => some stack

@[simp] theorem opening_inj {left right : Bracket} : left.opening = right.opening ↔ left = right := by
  cases left <;> cases right <;> decide

@[simp] theorem closing_inj {left right : Bracket} : left.closing = right.closing ↔ left = right := by
  cases left <;> cases right <;> decide

@[simp] theorem opening_ne_closing (left right : Bracket) : left.opening ≠ right.closing := by
  cases left <;> cases right <;> decide

@[simp] theorem closing_ne_opening (left right : Bracket) : left.closing ≠ right.opening :=
  (opening_ne_closing right left).symm

@[simp] theorem opening_ne_endOfInput (bracket : Bracket) : bracket.opening ≠ .endOfInput := by
  cases bracket <;> decide

@[simp] theorem closing_ne_endOfInput (bracket : Bracket) : bracket.closing ≠ .endOfInput := by
  cases bracket <;> decide

/-- A token that is no bracket. -/
def Plain (kind : Kind) : Prop :=
  ∀ bracket : Bracket, kind ≠ bracket.opening ∧ kind ≠ bracket.closing

/-- What a token can do to the open brackets. -/
theorem step_cases {stack changed : List Bracket} {kind : Kind} (stepped : step stack kind = some changed) :
    (∃ bracket : Bracket, kind = bracket.opening ∧ changed = bracket :: stack) ∨
      (∃ bracket : Bracket, kind = bracket.closing ∧ stack = bracket :: changed) ∨
        (Plain kind ∧ changed = stack) := by
  have closes (bracket : Bracket) (closed : close bracket stack = some changed) :
      stack = bracket :: changed := by
    cases stack with
    | nil => cases closed
    | cons innermost outer =>
        by_cases same : innermost = bracket
        · rw [close, if_pos same] at closed
          rw [same, Option.some.inj closed]
        · rw [close, if_neg same] at closed
          cases closed
  unfold step at stepped
  split at stepped
  · exact .inl ⟨.round, rfl, by cases stepped; rfl⟩
  · exact .inl ⟨.square, rfl, by cases stepped; rfl⟩
  · exact .inl ⟨.curly, rfl, by cases stepped; rfl⟩
  · exact .inr (.inl ⟨.round, rfl, closes .round stepped⟩)
  · exact .inr (.inl ⟨.square, rfl, closes .square stepped⟩)
  · exact .inr (.inl ⟨.curly, rfl, closes .curly stepped⟩)
  · refine .inr (.inr ⟨fun bracket => ?_, by cases stepped; rfl⟩)
    cases bracket <;> exact ⟨by assumption, by assumption⟩

end Bracket

namespace Script

/-- The part of the script that begins at a place ends at another one. -/
def Reaches {relation : Nat → Nat → Prop}
    (partEnd : (place : Nat) → Except Diagnostic { next // relation place next })
    (place finish : Nat) : Prop :=
  ∃ related : relation place finish, partEnd place = .ok ⟨finish, related⟩

section

variable {relation : Nat → Nat → Prop}
variable {partEnd : (place : Nat) → Except Diagnostic { next // relation place next }}

theorem Reaches.unique {place left right : Nat} (first : Reaches partEnd place left)
    (second : Reaches partEnd place right) : left = right := by
  obtain ⟨_, first⟩ := first
  obtain ⟨_, second⟩ := second
  rw [first] at second
  exact congrArg Subtype.val (Except.ok.inj second)

theorem reaches_of_ok {place : Nat} {next : { next // relation place next }}
    (found : partEnd place = .ok next) : Reaches partEnd place next.val :=
  ⟨next.property, found⟩

end

theorem bind_ok {α β : Type} {first : Except Diagnostic α} {next : α → Except Diagnostic β}
    {result : β} (succeeded : (first >>= next) = .ok result) :
    ∃ value, first = .ok value ∧ next value = .ok result := by
  cases first with
  | error diagnostic => cases succeeded
  | ok value => exact ⟨value, rfl, succeeded⟩

theorem map_ok {α β : Type} {first : Except Diagnostic α} {change : α → β} {result : β}
    (succeeded : first.map change = .ok result) : ∃ value, first = .ok value ∧ change value = result := by
  cases first with
  | error diagnostic => cases succeeded
  | ok value => exact ⟨value, rfl, Except.ok.inj succeeded⟩

/-! ### Looks that are made of others -/

/-- The end that is looked for is found at the place. -/
def Finds {allowed : Nat → Prop} (result : Except Diagnostic (Subtype allowed)) (finish : Nat) : Prop :=
  ∃ held : allowed finish, result = .ok ⟨finish, held⟩

section

variable {allowed further : Nat → Prop} {result : Except Diagnostic (Subtype allowed)}
variable {next : Subtype allowed → Except Diagnostic (Subtype further)} {middle finish : Nat}

theorem Finds.bind (first : Finds result middle)
    (rest : ∀ held, Finds (next ⟨middle, held⟩) finish) : Finds (result >>= next) finish := by
  obtain ⟨held, found⟩ := first
  rw [found]
  exact rest held

/-- Less may be kept of how far ahead the end lies. -/
theorem Finds.weaken {kept : ∀ place : Subtype allowed, further place.val}
    (found : Finds result finish) :
    Finds (result >>= fun place => (pure ⟨place.val, kept place⟩ : Except Diagnostic _)) finish :=
  found.bind fun held => ⟨kept ⟨finish, held⟩, rfl⟩

theorem finds_bind_iff {onward : Nat → Prop}
    (rest : ∀ place, Finds (next place) finish ↔ onward place.val) :
    Finds (result >>= next) finish ↔ ∃ middle, Finds result middle ∧ onward middle := by
  constructor
  · rintro ⟨held, found⟩
    obtain ⟨place, first, second⟩ := bind_ok found
    exact ⟨place.val, ⟨place.property, first⟩, (rest place).mp ⟨held, second⟩⟩
  · rintro ⟨middle, first, onwards⟩
    exact first.bind fun held => (rest ⟨middle, held⟩).mpr onwards

theorem finds_weaken_iff {kept : ∀ place : Subtype allowed, further place.val} :
    Finds (result >>= fun place => (pure ⟨place.val, kept place⟩ : Except Diagnostic _)) finish ↔
      Finds result finish := by
  refine ⟨?_, Finds.weaken⟩
  rintro ⟨_, found⟩
  obtain ⟨place, first, second⟩ := bind_ok found
  cases second
  exact ⟨place.property, first⟩

end

variable {script : Script} {bracket : Bracket}

theorem tokenEnd_ok {kind : Kind} {place : Nat} {next : Ahead place}
    (found : script.tokenEnd kind place = .ok next) :
    script.kindAt place = kind ∧ next.val = place + 1 := by
  unfold tokenEnd at found
  split at found
  case _ there => exact ⟨there, congrArg Subtype.val (Except.ok.inj found).symm⟩
  case _ => cases found

/-- All brackets of the script are properly nested. -/
def WellNested (script : Script) : Prop :=
  script.tokens.toList.foldlM (fun stack token => Bracket.step stack token.kind) [] = some []

instance : DecidablePred WellNested := fun _ => inferInstanceAs (Decidable (_ = _))

/-- Where so many open brackets of a pair are closed. -/
def closingPlace (script : Script) (bracket : Bracket) (depth place : Nat) :
    Except Diagnostic Nat :=
  (script.nestedEnd bracket.opening bracket.closing depth place).map Subtype.val

@[simp] theorem closingPlace_zero (place : Nat) :
    script.closingPlace bracket 0 place = .ok place := by
  unfold closingPlace nestedEnd
  rfl

theorem closingPlace_succ {depth place : Nat} (proper : script.kindAt place ≠ .endOfInput) :
    script.closingPlace bracket (depth + 1) place =
      script.closingPlace bracket
        (if script.kindAt place = bracket.opening then depth + 2
          else if script.kindAt place = bracket.closing then depth else depth + 1) (place + 1) := by
  unfold closingPlace
  rw [nestedEnd, dif_neg proper]
  dsimp only
  generalize script.nestedEnd _ _ _ (place + 1) = result
  cases result <;> rfl

theorem closingPlace_finished {place : Nat} (ended : script.kindAt place = .endOfInput)
    (bracket : Bracket) (depth : Nat) :
    ∃ diagnostic, script.closingPlace bracket (depth + 1) place = .error diagnostic := by
  unfold closingPlace
  rw [nestedEnd, dif_pos ended]
  exact ⟨_, rfl⟩

/-- Something in brackets ends where the count of open ones comes to nothing. -/
theorem reaches_balancedEnd_iff {place finish : Nat} :
    Reaches (script.balancedEnd bracket.opening bracket.closing) place finish ↔
      script.kindAt place = bracket.opening ∧
        script.closingPlace bracket 1 (place + 1) = .ok finish := by
  constructor
  · rintro ⟨ahead, ended⟩
    obtain ⟨inside, opened, rest⟩ := bind_ok ended
    obtain ⟨there, after⟩ := tokenEnd_ok opened
    obtain ⟨next, counted, rest⟩ := bind_ok rest
    have same : next.val = finish := congrArg Subtype.val (Except.ok.inj rest)
    refine ⟨there, ?_⟩
    rw [← after, closingPlace, counted, ← same]
    rfl
  · rintro ⟨there, counted⟩
    obtain ⟨next, found, same⟩ := map_ok counted
    refine ⟨Nat.lt_of_lt_of_le (Nat.lt_succ_self place) (same ▸ next.property), ?_⟩
    subst same
    unfold balancedEnd tokenEnd
    rw [if_pos there]
    change (script.nestedEnd _ _ 1 (place + 1) >>= fun next => _) = _
    rw [found]
    rfl

/-! ## Transparent parts -/

/-- Counting the open brackets of a pair gives the same from both places on, as long as one is
open. -/
def Transparent (script : Script) (bracket : Bracket) (first last : Nat) : Prop :=
  ∀ depth, script.closingPlace bracket (depth + 1) first = script.closingPlace bracket (depth + 1) last

namespace Transparent

variable {first middle last : Nat}

theorem refl (place : Nat) : script.Transparent bracket place place :=
  fun _ => rfl

theorem trans (start : script.Transparent bracket first middle)
    (rest : script.Transparent bracket middle last) : script.Transparent bracket first last :=
  fun depth => (start depth).trans (rest depth)

theorem token {place : Nat} (proper : script.kindAt place ≠ .endOfInput)
    (notOpening : script.kindAt place ≠ bracket.opening)
    (notClosing : script.kindAt place ≠ bracket.closing) :
    script.Transparent bracket place (place + 1) := by
  intro depth
  rw [closingPlace_succ proper, if_neg notOpening, if_neg notClosing]

theorem plain {place : Nat} (proper : script.kindAt place ≠ .endOfInput)
    (noBracket : Bracket.Plain (script.kindAt place)) :
    script.Transparent bracket place (place + 1) :=
  token proper (noBracket bracket).1 (noBracket bracket).2

theorem enclosed {pair : Bracket} (opened : script.kindAt first = pair.opening)
    (inside : script.Transparent bracket (first + 1) last)
    (closed : script.kindAt last = pair.closing) : script.Transparent bracket first (last + 1) := by
  have properFirst : script.kindAt first ≠ .endOfInput := by simp [opened]
  have properLast : script.kindAt last ≠ .endOfInput := by simp [closed]
  by_cases same : pair = bracket
  · subst same
    intro depth
    rw [closingPlace_succ properFirst, if_pos opened, inside, closingPlace_succ properLast]
    simp [closed]
  · refine (token properFirst ?_ ?_).trans (inside.trans (token properLast ?_ ?_)) <;>
      simp [opened, closed, same]

end Transparent

/-- More open brackets than needed are counted on from where the needed ones are closed. -/
theorem closingPlace_add {depth place finish : Nat}
    (closed : script.closingPlace bracket depth place = .ok finish) (more : Nat) :
    script.closingPlace bracket (more + depth) place = script.closingPlace bracket more finish := by
  match depth with
  | 0 =>
      rw [closingPlace_zero] at closed
      rw [Except.ok.inj closed, Nat.add_zero]
  | depth + 1 =>
      by_cases ended : script.kindAt place = .endOfInput
      · obtain ⟨diagnostic, failed⟩ := closingPlace_finished ended bracket depth
        rw [failed] at closed
        cases closed
      · rw [closingPlace_succ ended] at closed
        rw [← Nat.add_assoc, closingPlace_succ ended, ← closingPlace_add closed more]
        congr 1
        split
        · rfl
        · split <;> rfl
termination_by script.size - place
decreasing_by
  have := lt_size_of_kindAt ended
  omega

/-- A part that is transparent for a pair, in brackets of this pair, ends at the closing one. -/
theorem Transparent.reaches {first last : Nat} (opened : script.kindAt first = bracket.opening)
    (inside : script.Transparent bracket (first + 1) last)
    (closed : script.kindAt last = bracket.closing) :
    Reaches (script.balancedEnd bracket.opening bracket.closing) first (last + 1) := by
  refine reaches_balancedEnd_iff.mpr ⟨opened, ?_⟩
  rw [inside, closingPlace_succ (by simp [closed])]
  simp [closed]

theorem Transparent.balanced {place finish : Nat}
    (ended : Reaches (script.balancedEnd bracket.opening bracket.closing) place finish) :
    script.Transparent bracket place finish := by
  obtain ⟨opened, closed⟩ := reaches_balancedEnd_iff.mp ended
  intro depth
  rw [closingPlace_succ (by simp [opened]), if_pos opened, ← closingPlace_add closed (depth + 1)]

/-! ## Properly nested scripts -/

/-- All brackets that stand between two places match each other. -/
inductive Nested (script : Script) : Nat → Nat → Prop
  | done (place : Nat) : Nested script place place
  | plain {place last : Nat} (noBracket : Bracket.Plain (script.kindAt place))
      (rest : Nested script (place + 1) last) : Nested script place last
  | enclosed {first middle last : Nat} {pair : Bracket}
      (opened : script.kindAt first = pair.opening) (inside : Nested script (first + 1) middle)
      (closed : script.kindAt middle = pair.closing) (rest : Nested script (middle + 1) last) :
      Nested script first last

/-- Counting from a place never comes to an end. -/
def Stuck (script : Script) (place : Nat) : Prop :=
  ∀ bracket depth finish, script.closingPlace bracket (depth + 1) place ≠ .ok finish

theorem Stuck.of_transparent {first last : Nat} (stuck : script.Stuck last)
    (clear : ∀ bracket, script.Transparent bracket first last) : script.Stuck first := by
  intro bracket depth finish
  rw [clear bracket depth]
  exact stuck bracket depth finish

/-- A count that starts before matching brackets comes out of them as it went in, unless it meets the
end of the script there. -/
theorem Nested.transparent {first last : Nat} (nested : script.Nested first last) :
    (∀ bracket, script.Transparent bracket first last) ∨ script.Stuck first := by
  induction nested with
  | done place => exact .inl fun _ => .refl place
  | @plain place last noBracket rest ih =>
      by_cases ended : script.kindAt place = .endOfInput
      · right
        intro bracket depth finish closed
        obtain ⟨diagnostic, failed⟩ := closingPlace_finished ended bracket depth
        rw [failed] at closed
        cases closed
      · have clear (bracket : Bracket) : script.Transparent bracket place (place + 1) :=
          .plain ended noBracket
        rcases ih with onwards | stuck
        · exact .inl fun bracket => (clear bracket).trans (onwards bracket)
        · exact .inr (stuck.of_transparent clear)
  | @enclosed first middle last pair opened inside closed rest ihInside ihRest =>
      rcases ihInside with within | stuck
      · have clear (bracket : Bracket) : script.Transparent bracket first (middle + 1) :=
          .enclosed opened (within bracket) closed
        rcases ihRest with onwards | stuck
        · exact .inl fun bracket => (clear bracket).trans (onwards bracket)
        · exact .inr (stuck.of_transparent clear)
      · right
        intro bracket depth finish
        rw [closingPlace_succ (by simp [opened])]
        by_cases same : script.kindAt first = bracket.opening
        · rw [if_pos same]
          exact stuck bracket (depth + 1) finish
        · rw [if_neg same, if_neg (by simp [opened])]
          exact stuck bracket depth finish

/-- The brackets that are open at a place are closed in the rest of the script. -/
def ClosedFrom (script : Script) (stack : List Bracket) (place : Nat) : Prop :=
  (script.tokens.toList.drop place).foldlM (fun stack token => Bracket.step stack token.kind) stack =
    some []

theorem kindAt_eq {place : Nat} (inside : place < script.size) :
    script.kindAt place = script.tokens[place].kind := by
  simp [kindAt, tokenAt, Array.getElem?_eq_getElem inside]

theorem ClosedFrom.step {stack : List Bracket} {place : Nat} (inside : place < script.size)
    (closed : script.ClosedFrom stack place) :
    ∃ changed, Bracket.step stack (script.kindAt place) = some changed ∧
      script.ClosedFrom changed (place + 1) := by
  unfold ClosedFrom at closed
  rw [List.drop_eq_getElem_cons (by simpa [size] using inside), List.foldlM_cons] at closed
  obtain ⟨changed, stepped, rest⟩ := Option.bind_eq_some_iff.mp closed
  refine ⟨changed, ?_, rest⟩
  rw [kindAt_eq inside]
  exact stepped

theorem WellNested.closedFrom (nested : script.WellNested) {place : Nat} (inside : place ≤ script.size) :
    ∃ stack, script.ClosedFrom stack place := by
  induction place with
  | zero => exact ⟨[], nested⟩
  | succ place ih =>
      obtain ⟨stack, closed⟩ := ih (by omega)
      obtain ⟨changed, -, rest⟩ := closed.step (by omega)
      exact ⟨changed, rest⟩

/-- The innermost open bracket has its closing one further on, with matching brackets before it. -/
theorem ClosedFrom.matching {bracket : Bracket} {stack : List Bracket} {place : Nat}
    (closed : script.ClosedFrom (bracket :: stack) place) :
    ∃ finish, place ≤ finish ∧ script.Nested place finish ∧
      script.kindAt finish = bracket.closing ∧ script.ClosedFrom stack (finish + 1) := by
  by_cases inside : place < script.size
  · obtain ⟨changed, stepped, rest⟩ := closed.step inside
    rcases Bracket.step_cases stepped with
      ⟨inner, opened, rfl⟩ | ⟨innermost, there, same⟩ | ⟨noBracket, rfl⟩
    · obtain ⟨middle, beyond, within, closedInner, rest⟩ := rest.matching
      obtain ⟨finish, further, onwards, there, rest⟩ := rest.matching
      exact ⟨finish, by omega, .enclosed opened within closedInner onwards, there, rest⟩
    · obtain ⟨rfl, rfl⟩ := List.cons.inj same
      exact ⟨place, Nat.le_refl place, .done place, there, rest⟩
    · obtain ⟨finish, further, onwards, there, rest⟩ := rest.matching
      exact ⟨finish, by omega, .plain noBracket onwards, there, rest⟩
  · unfold ClosedFrom at closed
    rw [List.drop_eq_nil_of_le (by simpa [size] using inside)] at closed
    cases closed
termination_by script.size - place

/-- Where all brackets are properly nested, something in brackets is transparent for every pair. -/
theorem WellNested.transparent (nested : script.WellNested) {pair : Bracket} {place finish : Nat}
    (ended : Reaches (script.balancedEnd pair.opening pair.closing) place finish)
    (bracket : Bracket) : script.Transparent bracket place finish := by
  obtain ⟨opened, counted⟩ := reaches_balancedEnd_iff.mp ended
  have inside : place < script.size := lt_size_of_kindAt (by simp [opened])
  obtain ⟨stack, closed⟩ := nested.closedFrom (Nat.le_of_lt inside)
  obtain ⟨changed, stepped, rest⟩ := closed.step inside
  have pushed : changed = pair :: stack := by
    rcases Bracket.step_cases stepped with ⟨inner, there, rfl⟩ | ⟨inner, there, _⟩ | ⟨noBracket, _⟩
    · rw [opened, Bracket.opening_inj] at there
      rw [there]
    · simp [opened] at there
    · exact absurd opened (noBracket pair).1
  rw [pushed] at rest
  obtain ⟨last, -, within, there, -⟩ := rest.matching
  rcases within.transparent with clear | stuck
  · rw [ended.unique ((clear pair).reaches opened there)]
    exact .enclosed opened (clear bracket) there
  · exact absurd counted (stuck pair 0 finish)

end Script

end Onepass
