import Onepass.Proofs.Transport.Expression

/-! # Declarations and assignments in another script

Variables are declared and assigned to alike, and functions are declared with bodies at places that
correspond. Three facts about the first execution are passed on to the laws: a variable that is
assigned to is not constant when the value is stored, the body of a function that is declared stands
inside the script, and a function that returns something was declared with a type.
-/

set_option autoImplicit false

namespace Onepass

namespace Exec

variable {script : Script} {evaluator : Evaluator} {fuel : Nat} {machine final : Machine}

/-- When an assignment is about to store, its name does not stand for a constant: it did not when it
was looked up, and the new value was evaluated without changing that. -/
theorem preparedAssignment_variable (keeps : evaluator.KeepsControl) {name : Token} {target : Target}
    {value : Value}
    (prepared : preparedAssignment script evaluator fuel machine = .ok (name, target, value) final)
    {binding : Binding} (found : final.scopes.lookup? name.word = some binding) :
    binding.constant = false := by
  obtain ⟨token, afterName, -, rest⟩ := bind_ok prepared
  obtain ⟨_, before, -, rest⟩ := bind_ok rest
  obtain ⟨selected, indexed, -, rest⟩ := bind_ok rest
  obtain ⟨-, rest⟩ := guarded_ok (current_bind_ok rest)
  obtain ⟨_, ready, -, rest⟩ := bind_ok rest
  obtain ⟨known, looked, resolved, rest⟩ := bind_ok rest
  obtain ⟨changeable, rest⟩ := guarded_ok rest
  obtain ⟨chosen, selecting, select, rest⟩ := bind_ok rest
  obtain ⟨old, reading, read, rest⟩ := bind_ok (current_bind_ok rest)
  obtain ⟨new, evaluated, evaluation, rest⟩ := bind_ok rest
  obtain ⟨_, adopted, adoption, rest⟩ := bind_ok (get_bind_ok rest)
  obtain ⟨same, rfl⟩ := pure_ok rest
  cases same
  have kept : Machine.ControlKept [] looked final :=
    (controlDiscipline.selectElement _ _ selected).ok select
      |>.trans ((controlDiscipline.targetValue known target).ok read)
      |>.trans ((controlDiscipline.assignedValue keeps _ old).ok evaluation)
      |>.trans ((controlDiscipline.adopt value _ _).ok adoption)
  obtain ⟨bound, rfl⟩ := bindingOf_ok resolved
  rw [kept.lookup_constant bound found]
  simpa using changeable

/-- What is passed over is a part that ends, and it has at least one token. -/
theorem passOver_ahead {partEnd : (place : Nat) → Except Diagnostic (Ahead place)} {result : Unit}
    (passed : passOver partEnd machine = .ok result final) :
    machine.cursor < final.cursor ∧ ∃ next, partEnd machine.cursor = .ok next := by
  have passed := get_bind_ok passed
  cases found : partEnd machine.cursor with
  | error diagnostic =>
      rw [found] at passed
      cases passed
  | ok next =>
      rw [found] at passed
      cases passed
      exact ⟨next.property, next, rfl⟩

/-- Behind the brace of a block that ends there is a token. -/
theorem proper_of_bracesEnd {place : Nat} {next : Ahead place}
    (found : script.bracesEnd place = .ok next) : script.kindAt (place + 1) ≠ .endOfInput := by
  intro ended
  by_cases brace : script.kindAt place = .symbol .leftBrace
  · simp [Script.bracesEnd, Script.balancedEnd, Script.tokenEnd, brace, bind, Except.bind,
      Script.nestedEnd, ended] at found
  · simp [Script.bracesEnd, Script.balancedEnd, Script.tokenEnd, brace, bind, Except.bind] at found

/-- The type that was read behind the parameters of a function stands behind a colon. -/
theorem colon_of_optionalType {type : Option DeclaredType}
    (read : parameters.optionalType script machine = .ok type final) :
    type.getD .void = .void ∨ script.kindAt machine.cursor = .symbol .colon := by
  obtain ⟨colon, middle, accepted, rest⟩ := bind_ok read
  rcases accept_ok (by simp) accepted with ⟨rfl, there, -⟩ | ⟨rfl, -, -⟩
  · exact .inr there
  · obtain ⟨rfl, -⟩ := pure_ok rest
    exact .inl rfl

end Exec

namespace Transport.Laws

open Exec (Target)

variable {transport : Transport} {left right : Script} (laws : transport.Laws left right)
variable {evaluator partner : Evaluator} {fuel : Nat}

include laws

/-! ## Declarations and assignments -/

theorem checkAssigned (value : Value) (type : DeclaredType) {token twin : Token}
    (near : transport.Near token.position twin.position) :
    transport.Pairs Eq (Exec.checkAssigned value type token.position)
      (Exec.checkAssigned value type twin.position) := by
  apply (laws.conforms value type).then
  intro fits
  split
  · exact .same ()
  · exact laws.refuseDescribed near value fun found => .assignmentMismatch found type

theorem adopt (value : Value) (expected : Option DeclaredType) {token twin : Token}
    (near : transport.Near token.position twin.position) :
    transport.Pairs Eq (Exec.adopt value expected token.position)
      (Exec.adopt value expected twin.position) := by
  unfold Exec.adopt
  split
  · exact (laws.checkAssigned value _ near).then fun _ => laws.retag value _
  · exact .same ()

theorem initializer (evaluators : transport.Evaluators left evaluator partner)
    (type : DeclaredType) :
    transport.Pairs Eq (Exec.initializer left evaluator type fuel)
      (Exec.initializer right partner type fuel) := by
  unfold Exec.initializer
  split
  · exact evaluators.expression
  · apply laws.lookBlind (by simp [Kind.statementStarts])
    intro found
    split
    · exact (laws.declaredArray evaluators _ _).at
    · exact evaluators.expression.at

/-- At a token of its own the first execution accepts what the second one does. -/
theorem acceptProper {kind wanted : Kind} (proper : kind ≠ .endOfInput)
    (sought : wanted ≠ .endOfInput) :
    transport.PairsAt left kind Eq (Exec.accept left wanted) (Exec.accept right wanted) := by
  intro first second related known
  have here : left.kindAt first.cursor ≠ .endOfInput := known ▸ proper
  have same : right.kindAt second.cursor = left.kindAt first.cursor :=
    laws.embeds.kind (laws.agree related).cursor here
  change transport.Outcomes Eq
    ((if left.kindAt first.cursor = wanted then _ else _ : Exec Bool) first)
    ((if right.kindAt second.cursor = wanted then _ else _ : Exec Bool) second)
  rw [same]
  split
  case _ there =>
    exact (laws.advance sought).bind (fun _ _ _ => .same true) related there
  case _ => exact Pairs.same false related

/-- The same thing, found with names that were read at the same place. -/
def Placed {α : Type} (transport : Transport) (left : Script) (found twin : Token × α) : Prop :=
  transport.Read left .identifier found.1 twin.1 ∧ found.2 = twin.2

theorem declaredVariable (evaluators : transport.Evaluators left evaluator partner) {kind : Kind}
    (proper : kind ≠ .endOfInput) :
    transport.PairsAt left kind (Placed transport left) (Exec.declaredVariable left evaluator fuel)
      (Exec.declaredVariable right partner fuel) := by
  apply (laws.acceptProper proper (by simp)).bind
  rintro constant _ rfl
  apply (laws.expect (by simp)).bind
  intro name twin read
  have near : transport.Near name.position twin.position := .inr read.alike.position
  apply Pairs.get.bind
  intro machine other related
  rw [(laws.agree related).current, ← read.alike.word]
  apply Pairs.guarded _ (laws.refuse _ near)
  apply (laws.expectSymbol .colon).then
  intro _
  apply laws.readType.then
  intro type
  apply Pairs.guarded _ (laws.refuse _ near)
  apply (laws.expectSymbol .equal).then
  intro _
  apply laws.mark
  intro start begin close
  apply (laws.initializer evaluators type).then
  intro value
  exact (laws.adopt value _ close).then fun _ => .pure ⟨read, rfl⟩

theorem variableDeclaration (evaluators : transport.Evaluators left evaluator partner) {kind : Kind}
    (proper : kind ≠ .endOfInput) :
    transport.PairsAt left kind Eq (Exec.variableDeclaration left evaluator fuel)
      (Exec.variableDeclaration right partner fuel) := by
  apply (laws.declaredVariable evaluators proper).bind
  rintro ⟨name, binding⟩ ⟨twin, _⟩ ⟨read, rfl⟩ first second related
  apply Outcomes.succeeded rfl
  change transport.machines
    { first with scopes := (first.scopes.declare name.word binding).1 }
    { second with scopes := (second.scopes.declare twin.word binding).1 }
  rw [← show name.word = twin.word from read.alike.word]
  exact laws.declared related name.word binding

theorem indices (evaluators : transport.Evaluators left evaluator partner) :
    transport.Pairs (List.Forall₂ (SameAt transport)) (Exec.indices left evaluator fuel)
      (Exec.indices right partner fuel) := by
  induction fuel with
  | zero => exact laws.spent
  | succ fuel ih =>
      apply laws.lookBlind (by simp [Kind.statementStarts])
      intro found
      split
      case _ opened =>
        apply (laws.advance (by simp [opened])).bind
        intro _ _ _
        apply laws.mark
        intro token twin near
        apply evaluators.expression.then
        intro index
        apply (laws.expectSymbol .rightBracket).then
        intro _
        apply ih.bind
        intro rest others same
        exact .pure (.cons ⟨near, rfl⟩ same)
      case _ => exact (Pairs.pure .nil).at

theorem selectElement {name twin : Token} (alike : Token.Alike transport.positions name twin)
    {selected others : List (Token × Value)}
    (same : List.Forall₂ (SameAt transport) selected others) (container : Value) :
    transport.Pairs Eq (Exec.selectElement name container selected)
      (Exec.selectElement twin container others) := by
  induction same generalizing container with
  | nil => exact .same Target.named
  | @cons index other rest remaining first following ih =>
      obtain ⟨token, value⟩ := index
      obtain ⟨second, _⟩ := other
      obtain ⟨near, rfl⟩ := first
      cases following with
      | nil =>
          unfold Exec.selectElement
          split
          · apply Pairs.get.bind
            intro machine other related
            rw [(laws.agree related).heap]
            exact (laws.placeOf near _ value).then fun _ => .same _
          · rw [alike.word]
            exact laws.refuse _ (.inr alike.position)
      | cons next others =>
          exact (laws.elementAt near container value).then fun element => ih element

theorem targetValue (binding : Binding) (target : Target) :
    transport.Pairs Eq (Exec.targetValue binding target) (Exec.targetValue binding target) := by
  cases target with
  | named => exact .same binding.value
  | element address place =>
      apply Pairs.get.bind
      intro machine other related
      rw [(laws.agree related).heap]
      exact .same _

theorem assignedValue (evaluators : transport.Evaluators left evaluator partner)
    {operator twin : Token} (alike : Token.Alike transport.positions operator twin) (old : Value) :
    transport.Pairs Eq (Exec.assignedValue evaluator operator old)
      (Exec.assignedValue partner twin old) := by
  have near : transport.Near operator.position twin.position := .inr alike.position
  unfold Exec.assignedValue
  rw [alike.kind]
  split
  · exact laws.applyBinary near _ _ _
  · exact laws.applyBinary near _ _ _
  · split
    · exact evaluators.expression.then fun operand => laws.applyBinary near _ old operand
    · exact evaluators.expression
  · exact evaluators.expression

theorem preparedAssignment (evaluators : transport.Evaluators left evaluator partner) :
    transport.PairsAt left .identifier (Placed transport left)
      (Exec.preparedAssignment left evaluator fuel)
      (Exec.preparedAssignment right partner fuel) := by
  apply (laws.advance (by simp)).bind
  intro name twin read
  apply (laws.bindingOf read.alike).then
  intro _
  apply (laws.indices evaluators).bind
  intro selected others same
  apply laws.see
  · intro operator symbol alike
    rw [← alike.kind]
    split
    · exact (laws.refuse_bind _ (.inr alike.position)).at
    case _ assigns =>
      have proper : operator.kind ≠ .endOfInput := by
        intro ended
        simp [ended, Kind.isAssignment, Kind.isStep] at assigns
      apply (laws.advance proper).bind
      intro _ _ _
      apply (laws.bindingOf read.alike).then
      intro binding
      rw [← read.alike.word]
      apply Pairs.guarded _ (laws.refuse _ (.inr read.alike.position))
      apply (laws.selectElement read.alike same binding.value).then
      intro target
      apply laws.mark
      intro start begin near
      apply (laws.targetValue binding target).then
      intro old
      apply (laws.assignedValue evaluators alike old).then
      intro value
      apply Pairs.get.bind
      intro machine other related
      rw [(laws.agree related).heap, same.length_eq]
      exact (laws.adopt value _ near).then fun _ => .pure ⟨read, rfl⟩
  · intro operator symbol ends ended _
    apply PairsAt.failing ends
    intro machine
    simp only [ended]
    exact ⟨_, _, rfl⟩

theorem assignment (evaluators : transport.Evaluators left evaluator partner) :
    transport.PairsAt left .identifier Eq (Exec.assignment left evaluator fuel)
      (Exec.assignment right partner fuel) := by
  intro first second related known
  apply bind_outcomes (laws.preparedAssignment evaluators related known)
  rintro ⟨name, target, value⟩ ⟨twin, _⟩ middle between prepared ⟨read, rfl⟩ ready
  cases target with
  | named =>
      apply Outcomes.succeeded rfl
      change transport.machines
        { middle with scopes := (middle.scopes.assign name.word value).1 }
        { between with scopes := (between.scopes.assign twin.word value).1 }
      rw [← show name.word = twin.word from read.alike.word]
      exact laws.assigned ready name.word value fun binding found =>
        Exec.preparedAssignment_variable evaluators.control prepared found
  | element address place =>
      apply Outcomes.succeeded rfl
      change transport.machines { middle with heap := middle.heap.write address place value }
        { between with heap := between.heap.write address place value }
      rw [(laws.agree ready).heap]
      exact laws.stored ready _

/-! ## Functions -/

theorem optionalType :
    transport.Pairs Eq (Exec.parameters.optionalType left)
      (Exec.parameters.optionalType right) := by
  apply (laws.accept (by simp) (by decide)).then
  intro colon
  split
  · exact laws.readType.then fun type => .same (some type)
  · exact .same none

theorem parameters (function : String) (known : List Parameter) :
    transport.Pairs Eq (Exec.parameters left function known fuel)
      (Exec.parameters right function known fuel) := by
  induction fuel generalizing known with
  | zero => exact laws.spent
  | succ fuel ih =>
      apply laws.lookBlind (by simp [Kind.statementStarts])
      intro found
      split
      · exact (Pairs.same known).at
      · apply Pairs.at
        apply (laws.expect (by simp)).bind
        intro name twin read
        rw [← read.alike.word]
        apply Pairs.guarded _ (laws.refuse _ (.inr read.alike.position))
        apply laws.optionalType.then
        intro type
        apply (laws.accept (by simp) (by decide)).then
        intro more
        split
        · exact ih _
        · exact .same _

theorem register {function other : Function} (corresponds : transport.functions function other)
    {name twin : Token} (called : transport.Called left name twin)
    (named : function.name = name.word) :
    transport.Pairs Eq (Exec.register function name.position)
      (Exec.register other twin.position) := by
  intro first second related
  have found := (laws.agree related).lookup called
  rw [← named] at found
  rw [Exec.register, Exec.register, Exec.get_bind_eq, Exec.get_bind_eq]
  unfold FunctionTable.register?
  rw [(laws.signature corresponds).name]
  generalize first.functions.lookup? function.name = known at found ⊢
  generalize second.functions.lookup? function.name = partner at found ⊢
  cases found with
  | none => exact .succeeded rfl (laws.registered related corresponds)
  | @some known partner alike =>
      have same : (partner.start == other.start) = (known.start == function.start) := by
        rw [Bool.eq_iff_iff, beq_iff_eq, beq_iff_eq]
        exact laws.starts alike corresponds
      simp only [Option.any_some, same, Option.isSome_some, if_true]
      split
      · exact Pairs.same () related
      · exact laws.refuse _ (.inr called.alike.position) related

/-- The body of a function that is declared stands between the braces that follow. -/
theorem registerBody {name twin : Token} (called : transport.Called left name twin)
    (signature : List Parameter) {returnType : DeclaredType}
    (typed : returnType = .void ∨ transport.DeclaresResult left) :
    transport.PairsAt left (.symbol .leftBrace) Eq
      (do
        let start := (← get).cursor + 1
        Exec.passOver left.bracesEnd
        let finish := (← get).cursor - 1
        Exec.register ⟨name.word, signature, returnType, start, finish⟩ name.position)
      (do
        let start := (← get).cursor + 1
        Exec.passOver right.bracesEnd
        let finish := (← get).cursor - 1
        Exec.register ⟨name.word, signature, returnType, start, finish⟩ twin.position) := by
  intro first second related known
  have paired := (laws.agree related).cursor
  change transport.Outcomes Eq
    ((Exec.passOver left.bracesEnd >>= fun _ => get >>= fun machine => Exec.register
      ⟨name.word, signature, returnType, first.cursor + 1, machine.cursor - 1⟩ name.position) first)
    ((Exec.passOver right.bracesEnd >>= fun _ => get >>= fun machine => Exec.register
      ⟨name.word, signature, returnType, second.cursor + 1, machine.cursor - 1⟩ twin.position) second)
  apply bind_outcomes (laws.passOver related (laws.embeds.bracesEnd paired))
  rintro _ _ middle between passed rfl reached
  obtain ⟨further, _, found⟩ := Exec.passOver_ahead passed
  have corresponds : transport.functions
      ⟨name.word, signature, returnType, first.cursor + 1, middle.cursor - 1⟩
      ⟨name.word, signature, returnType, second.cursor + 1, between.cursor - 1⟩ :=
    laws.corresponding ⟨rfl, rfl, rfl⟩ (laws.embeds.next paired (by simp [known]))
      (laws.embeds.previous paired (laws.agree reached).cursor further)
      (Exec.proper_of_bracesEnd found) typed
  exact laws.register corresponds called rfl reached

theorem functionDeclaration :
    transport.Pairs Eq (Exec.functionDeclaration left fuel)
      (Exec.functionDeclaration right fuel) := by
  apply (laws.expect (by simp)).bind
  intro _ _ _
  apply laws.readCalled
  intro name twin called
  rw [← called.alike.word]
  apply (laws.parameters _ _).then
  intro signature first second related
  apply bind_outcomes (laws.expectSymbol .rightParen related)
  rintro _ _ middle between closed rfl ready
  have paired := (laws.agree related).cursor
  obtain ⟨closing, rfl⟩ := Exec.expectSymbol_ok closed
  apply bind_outcomes (laws.optionalType ready)
  rintro returnType _ middle between typed rfl related
  have result : returnType.getD .void = .void ∨ transport.DeclaresResult left :=
    (Exec.colon_of_optionalType typed).imp_right fun colon => ⟨_, _, paired, closing, colon⟩
  refine (laws.lookProper ?_ ?_ : transport.Pairs _ _ _) related
  · intro machine ended
    rw [if_pos (by simp)]
    exact ⟨_, _, rfl⟩
  · intro found
    by_cases brace : found = .symbol .leftBrace
    · subst brace
      exact laws.registerBody called signature result
    · rw [if_pos brace, if_pos brace]
      exact ((laws.refuseToken _).bind fun _ _ (no : False) => no.elim).at

end Transport.Laws

end Onepass
