import Onepass.Proofs.Lockstep.Expression

/-! # Declarations and assignments in step

Variables and functions are declared alike on related machines, and assignments find the same targets
and store the same values.
-/

set_option autoImplicit false

namespace Onepass

/-- A change of the scopes that does not look at what the callers have put aside. -/
def Scopes.Inward (change : Scopes → Scopes) : Prop :=
  ∀ scopes suspended, change { scopes with suspended } = { change scopes with suspended }

namespace Scopes

theorem inward_declare (name : String) (binding : Binding) :
    Inward fun scopes => (scopes.declare name binding).1 := by
  intro scopes suspended
  obtain ⟨globals, locals, others⟩ := scopes
  cases taken : (locals.headD globals).contains name with
  | true => simp only [declare, current, taken, ↓reduceIte]
  | false =>
      simp only [declare, current, taken]
      cases locals <;> rfl

theorem inward_assign (name : String) (value : Value) :
    Inward fun scopes => (scopes.assign name value).1 := by
  intro scopes suspended
  obtain ⟨globals, locals, others⟩ := scopes
  simp only [assign]
  cases assignIn name value locals with
  | some changed => rfl
  | none => dsimp only; split <;> rfl

theorem inward_push (scope : Scope) : Inward fun scopes => scopes.push scope :=
  fun _ _ => rfl

theorem inward_close : Inward close :=
  fun _ _ => rfl

end Scopes

namespace Coupling.Stores

open Exec (Target)

variable {coupling : Coupling} (stores : coupling.Stores)

include stores

/-! ## Checking and selecting -/

theorem checkAssigned (value : Value) (type : DeclaredType) {position twin : Position}
    (near : coupling.positions position twin) :
    coupling.Pairs Eq (Exec.checkAssigned value type position)
      (Exec.checkAssigned value type twin) := by
  apply (stores.conforms value type).then
  intro fits
  split
  · exact .same ()
  · exact stores.refuseDescribed near value fun found => .assignmentMismatch found type

theorem adopt (value : Value) (expected : Option DeclaredType) {position twin : Position}
    (near : coupling.positions position twin) :
    coupling.Pairs Eq (Exec.adopt value expected position) (Exec.adopt value expected twin) := by
  unfold Exec.adopt
  split
  · exact (stores.checkAssigned value _ near).then fun _ => stores.retag value _
  · exact .same ()

theorem selectElement {name twin : Token} (alike : Token.Alike coupling.positions name twin)
    {selected others : List (Token × Value)} (same : List.Forall₂ coupling.SameAt selected others)
    (container : Value) :
    coupling.Pairs Eq (Exec.selectElement name container selected)
      (Exec.selectElement twin container others) := by
  induction same generalizing container with
  | nil => exact .same Target.named
  | @cons index other rest remaining first following ih =>
      obtain ⟨token, value⟩ := index
      obtain ⟨second, _⟩ := other
      obtain ⟨near, rfl⟩ := first
      cases following with
      | nil =>
          unfold Exec.selectElement
          split
          · apply Pairs.get.bind
            intro machine other related
            rw [(stores.same related).heap]
            exact (stores.placeOf near _ value).then fun _ => .same _
          · rw [alike.word]
            exact .refuse _ alike.position
      | cons next others =>
          exact (stores.elementAt near container value).then fun element => ih element

theorem targetValue (binding : Binding) (target : Target) :
    coupling.Pairs Eq (Exec.targetValue binding target) (Exec.targetValue binding target) := by
  cases target with
  | named => exact .same binding.value
  | element address place =>
      apply Pairs.get.bind
      intro machine other related
      rw [(stores.same related).heap]
      exact .same _

end Coupling.Stores

namespace Coupling.Laws

open Exec (Target)

variable {coupling : Coupling} {left right : Script} (laws : coupling.Laws left right)
variable {evaluator partner : Evaluator} {fuel more : Nat}

include laws

theorem rescope {first second : Machine} (related : coupling.machines first second)
    {change : Scopes → Scopes} (inward : Scopes.Inward change) :
    coupling.machines { first with scopes := change first.scopes }
      { second with scopes := change second.scopes } := by
  have agree := laws.agree related
  have same : change first.scopes = { first.scopes with
      globals := (change second.scopes).globals, locals := (change second.scopes).locals } := by
    have alike : first.scopes = { second.scopes with suspended := first.scopes.suspended } :=
      congr (congrArg (fun globals locals => Scopes.mk globals locals first.scopes.suspended)
        agree.globals) agree.locals
    rw [alike, inward]
  have kept : change second.scopes = { second.scopes with
      globals := (change second.scopes).globals, locals := (change second.scopes).locals } :=
    inward second.scopes second.scopes.suspended
  rw [same]
  have rescoped := laws.rescoped related (change second.scopes).globals (change second.scopes).locals
  rwa [← kept] at rescoped

/-! ## Declarations and assignments -/

theorem initializer (evaluators : coupling.Evaluators evaluator partner)
    (rounds : coupling.Rounds fuel more) (type : DeclaredType) :
    coupling.Pairs Eq (Exec.initializer left evaluator type fuel)
      (Exec.initializer right partner type more) := by
  unfold Exec.initializer
  split
  · exact evaluators.expression
  · apply laws.currentKind.then
    intro found
    split
    · exact laws.declaredArray evaluators rounds _ _
    · exact evaluators.expression

theorem declaredVariable (evaluators : coupling.Evaluators evaluator partner)
    (rounds : coupling.Rounds fuel more) :
    coupling.Pairs coupling.Placed (Exec.declaredVariable left evaluator fuel)
      (Exec.declaredVariable right partner more) := by
  apply (laws.accept _).then
  intro constant
  apply (laws.expect .identifier).bind
  intro name twin alike
  apply Pairs.get.bind
  intro machine other related
  rw [(laws.agree related).current, alike.word]
  apply Pairs.guarded _ (.refuse _ alike.position)
  apply (laws.expectSymbol .colon).then
  intro _
  apply laws.readType.then
  intro type
  apply Pairs.guarded _ (.refuse _ alike.position)
  apply (laws.expectSymbol .equal).then
  intro _
  apply laws.current.bind
  intro start begin near
  apply (laws.initializer evaluators rounds type).then
  intro value
  exact (laws.stores.adopt value _ near.position).then fun _ => .pure ⟨alike, rfl⟩

theorem variableDeclaration (evaluators : coupling.Evaluators evaluator partner)
    (rounds : coupling.Rounds fuel more) :
    coupling.Pairs Eq (Exec.variableDeclaration left evaluator fuel)
      (Exec.variableDeclaration right partner more) := by
  apply (laws.declaredVariable evaluators rounds).bind
  rintro ⟨name, binding⟩ ⟨twin, _⟩ ⟨alike, rfl⟩ first second related
  apply Outcomes.succeeded rfl
  change coupling.machines
    { first with scopes := (first.scopes.declare name.word binding).1 }
    { second with scopes := (second.scopes.declare twin.word binding).1 }
  rw [show name.word = twin.word from alike.word]
  exact laws.rescope related (Scopes.inward_declare twin.word binding)

theorem indices (evaluators : coupling.Evaluators evaluator partner)
    (rounds : coupling.Rounds fuel more) :
    coupling.Pairs (List.Forall₂ coupling.Placed) (Exec.indices left evaluator fuel)
      (Exec.indices right partner more) := by
  induction rounds with
  | spent none => exact .spent _ none rfl
  | another rounds ih =>
      apply laws.currentKind.then
      intro found
      split
      · apply laws.advance.bind
        intro _ _ _
        apply laws.current.bind
        intro token twin alike
        apply evaluators.expression.then
        intro index
        apply (laws.expectSymbol .rightBracket).then
        intro _
        apply ih.bind
        intro rest others same
        exact .pure (.cons ⟨alike, rfl⟩ same)
      · exact .pure .nil

theorem assignedValue (evaluators : coupling.Evaluators evaluator partner) {operator twin : Token}
    (alike : Token.Alike coupling.positions operator twin) (old : Value) :
    coupling.Pairs Eq (Exec.assignedValue evaluator operator old)
      (Exec.assignedValue partner twin old) := by
  unfold Exec.assignedValue
  rw [alike.kind]
  split
  · exact laws.stores.applyBinary alike.position _ _ _
  · exact laws.stores.applyBinary alike.position _ _ _
  · split
    · exact evaluators.expression.then fun operand => laws.stores.applyBinary alike.position _ old operand
    · exact evaluators.expression
  · exact evaluators.expression

theorem store {name twin : Token} (alike : Token.Alike coupling.positions name twin) (target : Target)
    (value : Value) :
    coupling.Pairs Eq (Exec.store name target value) (Exec.store twin target value) := by
  intro first second related
  cases target with
  | named =>
      apply Outcomes.succeeded rfl
      change coupling.machines
        { first with scopes := (first.scopes.assign name.word value).1 }
        { second with scopes := (second.scopes.assign twin.word value).1 }
      rw [alike.word]
      exact laws.rescope related (Scopes.inward_assign twin.word value)
  | element address place =>
      apply Outcomes.succeeded rfl
      change coupling.machines { first with heap := first.heap.write address place value }
        { second with heap := second.heap.write address place value }
      rw [(laws.agree related).heap]
      exact laws.stored related _

theorem preparedAssignment (evaluators : coupling.Evaluators evaluator partner)
    (rounds : coupling.Rounds fuel more) :
    coupling.Pairs coupling.Placed (Exec.preparedAssignment left evaluator fuel)
      (Exec.preparedAssignment right partner more) := by
  apply laws.advance.bind
  intro name twin alike
  apply (laws.stores.bindingOf alike).then
  intro _
  apply (laws.indices evaluators rounds).bind
  intro selected others same
  apply laws.current.bind
  intro operator symbol near
  rw [near.kind]
  apply Pairs.guarded _ (.refuse _ near.position)
  apply laws.advance.bind
  intro _ _ _
  apply (laws.stores.bindingOf alike).then
  intro binding
  rw [alike.word]
  apply Pairs.guarded _ (.refuse _ alike.position)
  apply (laws.stores.selectElement alike (same.imp fun _ _ placed => placed.sameAt) binding.value).then
  intro target
  apply laws.current.bind
  intro start begin close
  apply (laws.stores.targetValue binding target).then
  intro old
  apply (laws.assignedValue evaluators near old).then
  intro value
  apply Pairs.get.bind
  intro machine other related
  rw [(laws.agree related).heap, same.length_eq]
  exact (laws.stores.adopt value _ close.position).then fun _ => .pure ⟨alike, rfl⟩

theorem assignment (evaluators : coupling.Evaluators evaluator partner)
    (rounds : coupling.Rounds fuel more) :
    coupling.Pairs Eq (Exec.assignment left evaluator fuel) (Exec.assignment right partner more) := by
  apply (laws.preparedAssignment evaluators rounds).bind
  rintro ⟨name, target, value⟩ ⟨twin, _⟩ ⟨alike, rfl⟩
  exact laws.store alike target value

/-! ## Functions -/

theorem optionalType :
    coupling.Pairs Eq (Exec.parameters.optionalType left) (Exec.parameters.optionalType right) := by
  apply (laws.accept _).then
  intro colon
  split
  · exact laws.readType.then fun type => .same (some type)
  · exact .same none

theorem parameters (function : String) (known : List Parameter) (rounds : coupling.Rounds fuel more) :
    coupling.Pairs Eq (Exec.parameters left function known fuel)
      (Exec.parameters right function known more) := by
  induction rounds generalizing known with
  | spent none => exact .spent (fun rounds => Exec.parameters right function known rounds) none rfl
  | another rounds ih =>
      apply laws.currentKind.then
      intro found
      split
      · exact .same known
      · apply (laws.expect .identifier).bind
        intro name twin alike
        rw [alike.word]
        apply Pairs.guarded _ (.refuse _ alike.position)
        apply laws.optionalType.then
        intro type
        apply (laws.accept _).then
        intro more
        split
        · exact ih _
        · exact .same _

theorem register {function : Function} (declared : left.Declared function) {position twin : Position}
    (near : coupling.positions position twin) :
    coupling.Pairs Eq (Exec.register function position) (Exec.register function twin) := by
  intro first second related
  change coupling.Outcomes Eq
    ((if (first.functions.lookup? function.name).any (·.start == function.start) = true
      then pure () else _ : Exec Unit) first)
    ((if (second.functions.lookup? function.name).any (·.start == function.start) = true
      then pure () else _ : Exec Unit) second)
  rw [← (laws.agree related).functions]
  split
  · exact .succeeded rfl related
  · cases extended : first.functions.register? function with
    | some functions => exact .succeeded rfl (laws.registered related declared extended)
    | none => exact Pairs.refuse _ near related

theorem declaredFunction (rounds : coupling.Rounds fuel more) :
    coupling.Pairs (fun read other => read.1 = other.1 ∧
        Token.Alike coupling.positions read.2 other.2)
      (Exec.declaredFunction left fuel) (Exec.declaredFunction right more) := by
  apply (laws.expect _).bind
  intro _ _ _
  apply (laws.expect .identifier).bind
  intro name twin alike
  apply (laws.expectSymbol .leftParen).then
  intro _
  rw [alike.word]
  apply (laws.parameters _ _ rounds).then
  intro signature
  apply (laws.expectSymbol .rightParen).then
  intro _
  apply laws.optionalType.then
  intro returnType
  apply laws.currentKind.then
  intro found
  apply Pairs.guarded _ (laws.refuseToken _)
  apply Pairs.get.bind
  intro before earlier related
  apply (laws.passOver laws.scripts.braces).then
  intro _
  apply Pairs.get.bind
  intro after later between
  rw [(laws.agree related).cursor, (laws.agree between).cursor]
  exact .pure ⟨rfl, alike⟩

theorem functionDeclaration (rounds : coupling.Rounds fuel more) :
    coupling.Pairs Eq (Exec.functionDeclaration left fuel) (Exec.functionDeclaration right more) := by
  rw [Exec.functionDeclaration_eq, Exec.functionDeclaration_eq]
  intro first second related
  apply bind_outcomes (laws.declaredFunction rounds related)
  rintro ⟨function, name⟩ ⟨_, twin⟩ middle between read ⟨rfl, alike⟩ within
  exact laws.register ⟨fuel, first, name, middle, read⟩ alike.position within

end Coupling.Laws

end Onepass
