import Onepass.Proofs.Layout
import Onepass.Proofs.Tree.Written
import Onepass.Proofs.Typing.Statement

/-! # Written assignments

An assignment as its parts: the destination, which is a variable or an element that is reached from one by
indices, and how its value changes. As expressions do, an assignment comes to the same whether it is
executed while it is read or from its parts, for which there is no cursor.
-/

set_option autoImplicit false

namespace Onepass

/-! ## The parts of an assignment -/

namespace Phrase

/-- The tokens of a phrase in brackets. -/
def bracketed (phrase : Phrase) : List Token :=
  .mark .leftBracket :: (phrase.tokens ++ [.mark .rightBracket])

/-- The element of a container at a place. -/
def element (container place : Phrase) : Phrase :=
  ⟨.index container.tree place.tree, container.tokens ++ place.bracketed, .closed⟩

/-- A token of the kind is no part of the phrase if it follows. -/
def EndsBefore (kind : Kind) (phrase : Phrase) : Prop :=
  kind.joint? = none ∧ phrase.tail.takes kind = false

instance (kind : Kind) (phrase : Phrase) : Decidable (phrase.EndsBefore kind) :=
  inferInstanceAs (Decidable (_ ∧ _))

end Phrase

/-- A variable, or what is reached from one by indices. -/
structure Destination where
  name : String
  places : List Phrase

namespace Destination

/-- The tokens of a destination. -/
def tokens (destination : Destination) : List Token :=
  .name destination.name :: destination.places.flatMap Phrase.bracketed

/-- The indices are written expressions. -/
def IsWritten (destination : Destination) : Prop :=
  ∀ place ∈ destination.places, Written 0 place

/-- The trees of the indices. -/
def indices (destination : Destination) : List Expr :=
  destination.places.map Phrase.tree

end Destination

/-- An operator that can be joined with an assignment, and the symbol for both. -/
structure Compound where
  operator : BinaryOperator
  mark : Symbol
  joins : BinaryOperator.ofCompound? mark = some operator

/-- What an assignment does with the value of its destination. -/
inductive Change where
  /-- Another value takes its place. -/
  | replaced (value : Phrase)
  /-- It is the left operand of an operator. -/
  | combined (compound : Compound) (operand : Phrase)
  /-- One is added. -/
  | increased
  /-- One is subtracted. -/
  | decreased

namespace Change

/-- The symbol of a change. -/
def mark : Change → Symbol
  | .replaced _ => .equal
  | .combined compound _ => compound.mark
  | .increased => .plusPlus
  | .decreased => .minusMinus

/-- The symbol of a change is one that changes something. -/
theorem mark_assigns (change : Change) :
    ((Kind.symbol change.mark).isAssignment || (Kind.symbol change.mark).isStep) = true := by
  cases change with
  | combined compound =>
      obtain ⟨operator, mark, joins⟩ := compound
      cases mark <;> first | rfl | cases joins
  | _ => rfl

/-- The expression that a change needs. -/
def operand? : Change → Option Phrase
  | .replaced operand | .combined _ operand => some operand
  | .increased | .decreased => none

/-- The tokens of a change. -/
def tokens (change : Change) : List Token :=
  .mark change.mark :: (change.operand?.map Phrase.tokens).getD []

/-- The expression is a written one. -/
def IsWritten (change : Change) : Prop :=
  ∀ operand ∈ change.operand?, Written 0 operand

/-- A token of the kind is no part of the change if it follows. -/
def EndsBefore (kind : Kind) (change : Change) : Prop :=
  ∀ operand ∈ change.operand?, operand.EndsBefore kind

variable (script : Script) (verbosity fuel : Nat)

/-- The value after a change. -/
def apply (old : Value) : Change → Exec Value
  | .replaced value => value.tree.evaluate script verbosity fuel
  | .combined compound operand => do
    let right ← operand.tree.evaluate script verbosity fuel
    Exec.applyBinary (.mark compound.mark) compound.operator old right
  | .increased => Exec.applyBinary (.mark .plusPlus) .add old (.number .one)
  | .decreased => Exec.applyBinary (.mark .minusMinus) .sub old (.number .one)

end Change

/-- An assignment. -/
structure Assignment where
  destination : Destination
  change : Change

namespace Assignment

/-- The tokens of an assignment. -/
def tokens (assignment : Assignment) : List Token :=
  assignment.destination.tokens ++ assignment.change.tokens

/-- All expressions in the assignment are written ones. -/
structure IsWritten (assignment : Assignment) : Prop where
  destination : assignment.destination.IsWritten
  change : assignment.change.IsWritten

/-- Executes an assignment. The variable has to exist before its indices are evaluated; a constant is
refused after that; the destination is found before its new value is computed, and the new value is checked
and retagged before it is stored. -/
def perform (script : Script) (verbosity : Nat) (assignment : Assignment) (fuel : Nat) : Exec Unit := do
  let name := Token.name assignment.destination.name
  let _ ← Exec.bindingOf name
  let places ← Expr.evaluateAll script verbosity fuel assignment.destination.indices
  let binding ← Exec.bindingOf name
  if binding.constant then
    Exec.refuse (.constantReassigned name.word) .start
  let target ← Exec.selectElement name binding.value (places.map (Token.mark .leftBracket, ·))
  let old ← Exec.targetValue binding target
  let value ← assignment.change.apply script verbosity fuel old
  Exec.adopt value (Exec.expectedType (← get).heap binding places.length target) .start
  Exec.store name target value

end Assignment

namespace Exec

variable {script : Script} {verbosity first last : Nat}

/-! ## Reading the parts -/

/-- Only without indices the variable itself is selected. -/
theorem selected_nothing {machine final : Machine} {name : Token} {value : Value}
    {selected : List (Token × Value)} (found : selectElement name value selected machine = .ok .named final) : selected = [] := by
  induction selected generalizing value machine with
  | nil => rfl
  | cons index rest ih =>
      exfalso
      cases rest with
      | nil =>
          unfold selectElement at found
          cases value with
          | array address =>
              obtain ⟨place, middle, placed, ended⟩ := bind_ok (get_bind_ok found)
              cases ended
          | _ => exact refuse_ne_ok found
      | cons next others =>
          obtain ⟨element, middle, _, behind⟩ := bind_ok found
          cases ih behind

/-- The indices of a destination are read one after the other. -/
theorem reads_indices {places : List Phrase} (written : ∀ place ∈ places, Written 0 place)
    (shown : script.Shows first last (places.flatMap Phrase.bracketed))
    (ends : script.kindAt last ≠ .symbol .leftBracket) :
    Reads (fun found values => found.map Prod.snd = values) first last
      (fun fuel rounds => indices script (evaluator script verbosity fuel) rounds)
      (fun fuel => Expr.evaluateAll script verbosity fuel (places.map Phrase.tree)) := by
  induction places generalizing first with
  | nil =>
      cases shown
      apply Reads.shift
      apply Reads.currentKind
      simp only [ends]
      exact .pure rfl
  | cons place places ih =>
      obtain ⟨middle, ⟨opening, inside⟩, rest⟩ := Script.shows_append.mp shown
      obtain ⟨_, inner, closing, rfl⟩ := Script.shows_append.mp inside
      have known : script.kindAt first = .symbol .leftBracket := opening.kind
      have read : IsRead script verbosity place := isRead_of_written (written place List.mem_cons_self)
      apply Reads.shift
      apply Reads.currentKind
      simp only [known, List.map_cons, Expr.evaluateAll]
      apply Reads.advance (by simp [known])
      apply Reads.current
      apply (read.before inner closing.kind (.inr (.inl rfl))).then
      intro value
      apply Reads.expectSymbol closing.kind
      apply (ih (fun place member => written place (List.mem_cons_of_mem _ member)) rest).bind
      rintro found _ rfl
      exact .pure rfl

theorem assignedValue_compound (evaluator : Evaluator) {compound : Compound} {operator : Token}
    (known : operator.kind = .symbol compound.mark) (old : Value) :
    assignedValue evaluator operator old = (do
      let operand ← evaluator.expression
      applyBinary operator compound.operator old operand) := by
  obtain ⟨operation, mark, joins⟩ := compound
  unfold assignedValue
  rw [known]
  cases mark <;> cases joins <;> rfl

/-- What follows the symbol of a change is read, and the change is applied. -/
theorem reads_assignedValue {change : Change} (written : change.IsWritten) {operator : Token}
    (known : operator.kind = .symbol change.mark)
    (shown : script.Shows first last ((change.operand?.map Phrase.tokens).getD []))
    (ends : change.EndsBefore (script.kindAt last)) (old : Value) :
    Reads Eq first last (fun fuel _ => assignedValue (evaluator script verbosity fuel) operator old)
      (fun fuel => change.apply script verbosity fuel old) := by
  have applied (place : Nat) (operation : BinaryOperator) (token : Token) (left right : Value) :
      Reads Eq place place (fun _ _ => applyBinary operator operation left right)
        (fun _ => applyBinary token operation left right) :=
    .steady ((Coupling.displaced_stores place).applyBinary trivial operation left right)
  cases change with
  | replaced value =>
      obtain ⟨alone, apart⟩ := ends value rfl
      simp only [assignedValue, known, Change.mark]
      exact isRead_of_written (written value rfl) shown alone apart
  | combined compound operand =>
      obtain ⟨alone, apart⟩ := ends operand rfl
      simp only [assignedValue_compound _ known]
      apply (isRead_of_written (written operand rfl) shown alone apart).then
      intro right
      exact applied _ _ _ _ _
  | increased =>
      cases shown
      simp only [assignedValue, known, Change.mark]
      exact applied _ _ _ _ _
  | decreased =>
      cases shown
      simp only [assignedValue, known, Change.mark]
      exact applied _ _ _ _ _

theorem sameAt_of_values (place : Nat) (found : List (Token × Value)) :
    List.Forall₂ (Coupling.displaced place).SameAt found
      ((found.map Prod.snd).map (Token.mark .leftBracket, ·)) := by
  rw [List.map_map, List.forall₂_map_right_iff]
  exact List.forall₂_same.mpr fun _ _ => ⟨trivial, rfl⟩

theorem store_pairs (place : Nat) {name twin : Token} (alike : name.word = twin.word) (target : Target)
    (value : Value) :
    (Coupling.displaced place).Pairs Eq (store name target value) (store twin target value) := by
  rintro _ machine rfl
  cases target with
  | named =>
      apply Coupling.Outcomes.succeeded rfl
      rw [← alike]
      rfl
  | element address index => exact .succeeded rfl rfl

/-- An assignment is executed while it is read as it is from its parts. -/
theorem reads_assignment (verbosity : Nat) {assignment : Assignment} (written : assignment.IsWritten)
    (shown : script.Shows first last assignment.tokens)
    (ends : assignment.change.EndsBefore (script.kindAt last)) :
    Reads Eq first last
      (fun fuel rounds => Exec.assignment script (evaluator script verbosity fuel) rounds)
      (assignment.perform script verbosity) := by
  obtain ⟨destination, change⟩ := assignment
  obtain ⟨middle, ⟨alike, inside⟩, operator, behind⟩ := Script.shows_append.mp shown
  have known : script.kindAt first = .identifier := alike.kind
  have marked : (script.tokenAt middle).kind = .symbol change.mark := operator.kind
  have passes : (!(script.tokenAt middle).kind.isAssignment && !(script.tokenAt middle).kind.isStep) =
      false := by
    rw [marked, ← Bool.not_or, change.mark_assigns]
    rfl
  have apart : script.kindAt middle ≠ .symbol .leftBracket := by
    intro same
    rw [Script.kindAt, marked] at same
    have changes := change.mark_assigns
    rw [same] at changes
    cases changes
  have proper : script.kindAt middle ≠ .endOfInput := by
    rw [Script.kindAt, marked]
    simp
  unfold Exec.assignment preparedAssignment
  simp only [bind_assoc]
  apply Reads.advance (by simp [known])
  apply (Reads.steady ((Coupling.displaced_stores _).bindingOf alike)).then
  intro _
  apply (reads_indices written.destination inside apart).bind
  rintro selected _ rfl
  apply Reads.current
  simp only [passes, Bool.false_eq_true, if_false, bind_assoc]
  apply Reads.advance proper
  apply (Reads.steady ((Coupling.displaced_stores _).bindingOf alike)).then
  intro binding
  by_cases constant : binding.constant = true
  · simp only [constant, if_true, bind_assoc]
    have refused : Reads (fun (_ : Unit) (_ : Unit) => False) (middle + 1) (middle + 1)
        (fun _ _ => refuse (.constantReassigned (script.tokenAt first).word)
          (script.tokenAt first).position)
        (fun _ => refuse (.constantReassigned (Token.name destination.name).word) .start) := by
      rw [show (script.tokenAt first).word = (Token.name destination.name).word from alike.word]
      exact .steady (.refuse _ trivial)
    exact refused.bind fun _ _ impossible => impossible.elim
  · simp only [constant, Bool.false_eq_true, if_false, bind_assoc, pure_bind]
    have same := sameAt_of_values (middle + 1) selected
    apply (Reads.steady ((Coupling.displaced_stores _).selectElement alike same binding.value)).then
    intro target
    apply Reads.current
    apply (Reads.steady ((Coupling.displaced_stores _).targetValue binding target)).then
    intro old
    apply (reads_assignedValue written.change marked behind ends old).then
    intro value
    apply Reads.steady
    apply Coupling.Pairs.get.bind
    rintro _ machine rfl
    simp only [List.length_map]
    apply ((Coupling.displaced_stores _).adopt value _ trivial).then
    intro _
    exact store_pairs _ alike.word target value

end Exec

/-! ## Executing the statement -/

namespace Failure.Alike

variable {failure twin other : Failure}

theorem symm (alike : Failure.Alike (fun _ _ => True) failure twin) :
    Failure.Alike (fun _ _ => True) twin failure := by
  cases alike <;> constructor
  trivial

theorem trans (alike : Failure.Alike (fun _ _ => True) failure twin)
    (near : Failure.Alike (fun _ _ => True) twin other) :
    Failure.Alike (fun _ _ => True) failure other := by
  cases alike <;> cases near <;> constructor
  trivial

end Failure.Alike

/-- Machines that agree in everything but where they stand and what was traced. -/
def Coupling.elsewhere : Coupling where
  positions _ _ := True
  machines first second := ∃ cursor trace, first = { second with cursor, trace }
  lenient := False

namespace Exec

variable {script : Script} {verbosity first last : Nat}

theorem assigns_of_shows {assignment : Assignment} (shown : script.Shows first last assignment.tokens) :
    script.assigns first := by
  obtain ⟨⟨name, places⟩, change⟩ := assignment
  obtain ⟨alike, following⟩ := shown
  refine ⟨alike.kind, ?_⟩
  cases places with
  | nil =>
      have changes := change.mark_assigns
      rw [show script.kindAt (first + 1) = .symbol change.mark from following.1.kind, changes]
      rfl
  | cons place rest =>
      rw [show script.kindAt (first + 1) = .symbol .leftBracket from following.1.kind]
      rfl

theorem statement_settles (script : Script) (verbosity : Nat) (machine : Machine) :
    ∃ outcome, Settles (statement script verbosity) machine outcome :=
  settles_of_fuelled machine fun le => (fuelled_evaluators script verbosity le).statement

/-- What an execution is traced with does not matter to an assignment. -/
theorem assignment_untraced (script : Script) (verbosity fuel : Nat) (machine : Machine)
    (trace : Array String) :
    Coupling.untraced.Outcomes Eq
      (Exec.assignment script (evaluator script verbosity fuel) fuel machine)
      (Exec.assignment script (evaluator script verbosity fuel) fuel { machine with trace }) := by
  have same : script.SameWords script := ⟨rfl, fun _ _ => Iff.rfl⟩
  have laws := Coupling.untraced_laws same.alike
  have counted {first second : Machine} (related : Coupling.untraced.machines first second) :
      Coupling.untraced.machines (observed script verbosity first) (observed script verbosity second) := by
    obtain ⟨trace, rfl⟩ := related
    exact ⟨_, rfl⟩
  exact laws.assignment (laws.evaluators counted (.refl _ fuel)) (.refl _ fuel) ⟨trace, rfl⟩

/-- Reading an assignment with another trace. -/
theorem elsewhere_of_untraced {read traced : Outcome Unit} {twin : Option (Outcome Unit)}
    (untraced : Coupling.untraced.Outcomes Eq read traced)
    (related : Option.Rel (Mirrors Eq last) (completed read) twin) :
    Option.Rel (Coupling.elsewhere.Outcomes Eq) (completed traced) twin := by
  cases untraced with
  | early allowed => exact allowed.elim
  | succeeded _ apart =>
      obtain ⟨trace, rfl⟩ := apart
      cases related with
      | some mirrors => cases mirrors with
        | succeeded _ final => exact .some (.succeeded rfl ⟨_, _, rfl⟩)
  | @failed failure other _ _ alike apart =>
      obtain ⟨trace, rfl⟩ := apart
      by_cases ended : failure = .exhausted
      · subst ended
        cases alike
        cases related
        exact .none
      · have endless : other ≠ .exhausted := by
          rintro rfl
          cases alike
          exact ended rfl
        rw [completed_error ended] at related
        rw [completed_error endless]
        cases related with
        | some mirrors => cases mirrors with
          | failed near final place =>
              exact .some (.failed (alike.symm.trans near) ⟨_, _, rfl⟩)

/-- A statement ends normally where the assignment in it succeeds. -/
theorem elsewhere_simple {action : Exec Unit} {machine : Machine} {twin : Option (Outcome Unit)}
    (related : Option.Rel (Coupling.elsewhere.Outcomes Eq) (completed (action machine)) twin) :
    Option.Rel (Coupling.elsewhere.Outcomes fun signal _ => signal = .normal)
      (completed (simple script action machine)) twin := by
  rw [simple, completed_bind]
  generalize completed (action machine) = outcome at related
  cases related with
  | none => exact .none
  | some outcomes =>
      cases outcomes with
      | early allowed => exact allowed.elim
      | failed alike apart => exact .some (.failed alike apart)
      | succeeded _ apart =>
          obtain ⟨cursor, trace, rfl⟩ := apart
          simp only [continued]
          rw [bind_of_ok (acceptSemicolon_eq script _)]
          exact .some (.succeeded rfl ⟨_, _, rfl⟩)

/-- A statement that is an assignment ends as the assignment does: normally, or with the same failure, or
never; and the machines agree in everything but where they stand and what was traced. -/
theorem statement_assigns (verbosity : Nat) {assignment : Assignment} (written : assignment.IsWritten)
    (shown : script.Shows first last assignment.tokens)
    (ends : assignment.change.EndsBefore (script.kindAt last)) (machine : Machine) :
    ∃ outcome twin, Settles (statement script verbosity) { machine with cursor := first } outcome ∧
      Settles (assignment.perform script verbosity) { machine with steps := machine.steps + 1 } twin ∧
        Option.Rel (Coupling.elsewhere.Outcomes fun signal _ => signal = .normal) outcome twin := by
  obtain ⟨outcome, enough, settled⟩ := statement_settles script verbosity { machine with cursor := first }
  obtain ⟨begun, twin, ⟨plenty, stable⟩, performed, related⟩ :=
    reads_assignment verbosity written shown ends { machine with steps := machine.steps + 1 }
  refine ⟨outcome, twin, ⟨enough, settled⟩, performed, ?_⟩
  have assigns : script.assigns first := assigns_of_shows shown
  let fuel := max enough plenty
  have ran : completed (dispatch script verbosity (evaluator script verbosity fuel) fuel
      { machine with cursor := first }) = outcome := settled (fuel + 1) (by omega)
  rw [dispatch_assignment script _ _ _ assigns] at ran
  rw [← stable fuel fuel (by omega) (by omega)] at related
  rw [← ran]
  -- Only its line in the trace sets the machine of the statement apart from the one that is compared.
  exact elsewhere_simple (elsewhere_of_untraced (assignment_untraced script verbosity fuel _ _) related)

end Exec

end Onepass
