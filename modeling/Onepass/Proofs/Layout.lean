import Onepass.Execution.Run
import Onepass.Proofs.Extent.Embedding
import Onepass.Proofs.Lockstep.Statement

/-! # Layout carries no meaning

How the tokens of a script are laid out on lines decides one thing only: whether what follows a
`return` stands on the same line. Two scripts with the same words that agree in this are executed
alike, and differ in the positions of their diagnostics and in their traces.
-/

set_option autoImplicit false

namespace Onepass

namespace Script

/-- The kinds and texts of the tokens. -/
def words (script : Script) : List (Kind × Option String) :=
  script.tokens.toList.map fun token => (token.kind, token.text)

/-- Whether what follows the token at a place stands on its line. -/
def continuesLine (script : Script) (place : Nat) : Prop :=
  (script.tokenAt (place + 1)).position.line = (script.tokenAt place).position.line

instance (script : Script) (place : Nat) : Decidable (script.continuesLine place) :=
  inferInstanceAs (Decidable (_ = _))

/-- Two scripts with the same words, in which the same things stand on the line of a `return`. -/
structure SameWords (left right : Script) : Prop where
  words : left.words = right.words
  returns : ∀ place, left.kindAt place = .keyword .returnWord →
    (left.continuesLine place ↔ right.continuesLine place)

theorem alike_of_words {left right : Script} (same : left.words = right.words) (place : Nat) :
    Token.Alike (fun _ _ => True) (left.tokenAt place) (right.tokenAt place) := by
  have entry : left.words[place]? = right.words[place]? := by rw [same]
  simp only [Script.words, List.getElem?_map, Array.getElem?_toList] at entry
  unfold tokenAt
  cases here : left.tokens[place]? with
  | none =>
      cases there : right.tokens[place]? with
      | none => exact ⟨rfl, rfl, trivial⟩
      | some twin => simp [here, there] at entry
  | some token =>
      cases there : right.tokens[place]? with
      | none => simp [here, there] at entry
      | some twin =>
          simp only [here, there, Option.map_some, Option.some.injEq, Prod.mk.injEq] at entry
          exact ⟨entry.1, entry.2, trivial⟩

/-- Every script lies at its own places in one with the same words. -/
def anywhere : Embedding where
  positions _ _ := True
  places := Eq
  ends _ := False
  running _ := True

theorem eq_of_samePlace {start : Nat → Prop} {place twin : Subtype start}
    (same : anywhere.SamePlace place twin) : place = twin :=
  Subtype.ext same

theorem diagnosed_of_looks {α : Type} {results : α → α → Prop} {result twin : Except Diagnostic α}
    (equal : ∀ {value other}, results value other → value = other)
    (looks : anywhere.Looks results result twin) : Diagnosed (fun _ _ => True) result twin := by
  cases looks with
  | found same =>
      obtain rfl := equal same
      exact .found _
  | refused cause near => exact .refused cause trivial
  | excused ends => exact ends.elim

namespace SameWords

variable {left right : Script} (same : left.SameWords right)

include same

theorem returnHasValue {running : Option DeclaredType} {place : Nat}
    (returns : left.kindAt place = .keyword .returnWord) :
    right.returnHasValue running (right.tokenAt place).position.line (place + 1) =
      left.returnHasValue running (left.tokenAt place).position.line (place + 1) := by
  have lines := same.returns place returns
  unfold continuesLine at lines
  have kinds := (alike_of_words same.words (place + 1)).kind
  unfold Script.returnHasValue
  simp only [← kinds, Bool.beq_eq_decide_eq, lines]

theorem embeds : anywhere.Embeds left right where
  token := by
    rintro place _ rfl
    exact .alike (alike_of_words same.words place)
  next := by
    rintro place _ rfl _
    rfl
  previous := by
    rintro place _ further _ rfl rfl _
    rfl
  ordered := by
    rintro place _ other _ rfl rfl
    rfl
  returns := by
    rintro place _ running rfl _ returns
    exact same.returnHasValue returns

/-- An execution cannot tell the scripts apart but for positions. -/
theorem alike : Script.Alike (fun _ _ => True) left right where
  token := alike_of_words same.words
  type _ := diagnosed_of_looks And.left (same.embeds.typeAt rfl)
  parentheses _ := diagnosed_of_looks eq_of_samePlace (same.embeds.parenthesesEnd rfl)
  braces _ := diagnosed_of_looks eq_of_samePlace (same.embeds.bracesEnd rfl)
  body running _ := by
    have allowed : anywhere.running running := trivial
    exact diagnosed_of_looks eq_of_samePlace (same.embeds.bodyEnd allowed _ _ rfl)
  returns _ _ returns := (same.returnHasValue returns).symm

end SameWords

end Script

/-- Machines are compared but for their traces, and positions do not count. -/
def Coupling.untraced : Coupling where
  positions _ _ := True
  machines first second := ∃ trace, second = { first with trace }
  lenient := False

theorem Coupling.untraced_laws {left right : Script}
    (scripts : Script.Alike (fun _ _ => True) left right) : untraced.Laws left right where
  scripts := scripts
  agree := by
    rintro machine _ ⟨trace, rfl⟩
    exact ⟨⟨rfl, rfl, rfl, rfl, rfl⟩, rfl, rfl, rfl, rfl⟩
  moved := by
    rintro machine _ ⟨trace, rfl⟩ place
    exact ⟨trace, rfl⟩
  rescoped := by
    rintro machine _ ⟨trace, rfl⟩ globals locals
    exact ⟨trace, rfl⟩
  stored := by
    rintro machine _ ⟨trace, rfl⟩ heap
    exact ⟨trace, rfl⟩
  wrote := by
    rintro machine _ ⟨trace, rfl⟩ text
    exact ⟨trace, rfl⟩
  registered := by
    rintro machine _ ⟨trace, rfl⟩ function functions _ _
    exact ⟨trace, rfl⟩
  looped := by
    rintro machine _ ⟨trace, rfl⟩ loopDepth
    exact ⟨trace, rfl⟩
  gave := by
    rintro machine _ ⟨trace, rfl⟩ value
    exact ⟨trace, rfl⟩
  entered := by
    rintro machine _ ⟨trace, rfl⟩ _ function arguments
    exact ⟨trace, rfl⟩
  returned := by
    rintro machine _ inside _ ⟨_, rfl⟩ _ _ _ _ ⟨trace, rfl⟩
    exact ⟨trace, rfl⟩

/-- Two scripts with the same words are executed alike, whatever the positions of their tokens and
whatever their traces show, if the same things stand on the lines of their `return`s: at the end the
machines differ in their traces only, and both runs succeed, or both fail for the same cause. -/
theorem Run.layout_irrelevant {left right : Script} (same : left.SameWords right)
    (verbosity other fuel : Nat) :
    (ofScript right other fuel).machine =
        { (ofScript left verbosity fuel).machine with
          trace := (ofScript right other fuel).machine.trace } ∧
      Option.Rel (Failure.Alike fun _ _ => True) (ofScript left verbosity fuel).failure
        (ofScript right other fuel).failure := by
  have laws := Coupling.untraced_laws same.alike
  have counted {first second : Machine} (related : Coupling.untraced.machines first second) :
      Coupling.untraced.machines (Exec.observed left verbosity first)
        (Exec.observed right other second) := by
    obtain ⟨trace, rfl⟩ := related
    exact ⟨_, rfl⟩
  have start : Coupling.untraced.machines .initial .initial := ⟨_, rfl⟩
  have outcomes := laws.program (laws.evaluators counted (.refl _ fuel)) (.refl _ fuel) start
  unfold ofScript
  generalize Exec.program left _ fuel _ = outcome at outcomes ⊢
  generalize Exec.program right _ fuel _ = twin at outcomes ⊢
  cases outcomes with
  | succeeded _ related =>
      obtain ⟨trace, rfl⟩ := related
      exact ⟨rfl, .none⟩
  | failed alike related =>
      obtain ⟨trace, rfl⟩ := related
      exact ⟨rfl, .some alike⟩
  | early allowed => exact allowed.elim

/-- Two layouts of a function that returns a value from the line after `return` and of a division by
zero, which fail at different positions for the same cause. -/
theorem Run.layout_irrelevant_across_lines :
    let left := Script.ofSource "func f(): number \x7b return\n 1 \x7d\nprint(f())\nprint(1 / 0)".toList
    let right := Script.ofSource "func f ( ) : number \x7b return\n\n1\x7d print(\nf()) print(1/0)".toList
    left.SameWords right ∧
      (ofScript left 0 30).failure = some (.diagnostic ⟨.divisionByZero, ⟨4, 9⟩⟩) ∧
      (ofScript right 2 30).machine.written = "1" ∧
      Option.Rel (Failure.Alike fun _ _ => True) (ofScript left 0 30).failure
        (ofScript right 2 30).failure := by
  intro left right
  have bounded : ∀ place < left.size, left.kindAt place = .keyword .returnWord →
      (left.continuesLine place ↔ right.continuesLine place) := by decide +kernel
  have same : left.SameWords right :=
    ⟨by decide +kernel, fun place returns =>
      bounded place (Script.lt_size_of_kindAt (by simp [returns])) returns⟩
  have alike := layout_irrelevant same 0 2 30
  have written : (ofScript left 0 30).machine.output = #["1"] := by decide +kernel
  refine ⟨same, by decide +kernel, ?_, alike.2⟩
  rw [alike.1, Machine.written, written]
  rfl

end Onepass
