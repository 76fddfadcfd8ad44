import Onepass.Proofs.Transport.Statement
import Onepass.Proofs.Watch

/-! # An execution beside itself

An execution of a script is compared with one of the same script, on the same machines. What is
carried along is a property of the scopes, which every single change has to keep; and the second
execution may fail in another way.
-/

set_option autoImplicit false

namespace Onepass

/-- What every change of the scopes keeps. Scopes are closed that were opened before, and calls return
to where they were begun, so the property may be used of the scopes at that time as well. -/
structure Scopes.Lasting (holds : Scopes → Prop) : Prop where
  declared : ∀ {scopes}, holds scopes → ∀ name binding, holds (scopes.declare name binding).1
  /-- Only what is not constant is assigned to. -/
  assigned : ∀ {scopes}, holds scopes → ∀ name value,
    (∀ binding, scopes.lookup? name = some binding → binding.constant = false) →
      holds (scopes.assign name value).1
  opened : ∀ {scopes}, holds scopes → ∀ scope, holds (scopes.push scope)
  closed : ∀ {machine inside : Machine} {scope added}, holds machine.scopes →
    Machine.ControlKept added { machine with scopes := machine.scopes.push scope } inside →
      holds inside.scopes → holds inside.scopes.close
  entered : ∀ {scopes}, holds scopes → ∀ scope, holds (scopes.enter.push scope)
  returned : ∀ {machine inside : Machine} {function arguments added}, holds machine.scopes →
    Machine.ControlKept added (Exec.enterCall function arguments machine) inside →
      holds inside.scopes → holds inside.scopes.leave

theorem Scopes.lasting_true : Scopes.Lasting fun _ => True where
  declared _ _ _ := trivial
  assigned _ _ _ _ := trivial
  opened _ _ := trivial
  closed _ _ _ := trivial
  entered _ _ := trivial
  returned _ _ _ := trivial

namespace Transport

/-- An execution beside one of the same script on the same machines. -/
def itself (failures : Failure → Failure → Prop) (holds : Scopes → Prop) : Transport where
  positions := Eq
  places := Eq
  ends _ := False
  running _ := True
  failures := failures
  functions := Eq
  machines first second := second = first ∧ holds first.scopes

variable {failures : Failure → Failure → Prop} {holds : Scopes → Prop} {script : Script}

theorem itself_laws (lasting : Scopes.Lasting holds)
    (diagnostic : ∀ diagnostic, failures (.diagnostic diagnostic) (.diagnostic diagnostic))
    (limit : ∀ limit, failures (.limit limit) (.limit limit))
    (endless : failures .endless .endless) (exhausted : failures .exhausted .exhausted) :
    (itself failures holds).Laws script script where
  embeds := {
    token := by
      rintro place _ rfl
      exact .alike ⟨rfl, rfl, rfl⟩
    next := by
      rintro place _ rfl _
      rfl
    previous := by
      rintro place _ further _ rfl rfl _
      rfl
    ordered := by
      rintro place _ other _ rfl rfl
      rfl
    returns := by
      rintro place _ running rfl _ _
      rfl }
  diagnostic := by
    rintro position _ cause rfl
    exact diagnostic _
  limit := limit
  endless := endless
  exhausted := exhausted
  agree := by
    rintro _ machine ⟨rfl, kept⟩
    refine ⟨rfl, rfl, rfl, rfl, rfl, rfl, trivial, ?_, rfl, ?_⟩
    · cases machine.frames.head? with
      | none => exact .none
      | some function => exact .some ⟨rfl, rfl, rfl⟩
    · intro name twin _
      cases machine.functions.lookup? name.word with
      | none => exact .none
      | some function => exact .some rfl
  moved := by
    rintro machine _ ⟨rfl, kept⟩ place _ rfl
    exact ⟨rfl, kept⟩
  stored := by
    rintro machine _ ⟨rfl, kept⟩ heap
    exact ⟨rfl, kept⟩
  wrote := by
    rintro machine _ ⟨rfl, kept⟩ text
    exact ⟨rfl, kept⟩
  looped := by
    rintro machine _ ⟨rfl, kept⟩ loopDepth
    exact ⟨rfl, kept⟩
  gave := by
    rintro machine _ ⟨rfl, kept⟩ value
    exact ⟨rfl, kept⟩
  signature := by
    rintro function _ rfl
    exact ⟨rfl, rfl, rfl⟩
  starts := by
    rintro function _ other _ rfl rfl
    rfl
  corresponding := by
    intro function twin signature starts finishes _ _
    have start : twin.start = function.start := starts.symm
    have finish : twin.finish = function.finish := finishes.symm
    change function = twin
    rw [signature.eq, start, finish]
  registered := by
    rintro machine _ ⟨rfl, kept⟩ function _ rfl
    exact ⟨rfl, kept⟩
  declared := by
    rintro machine _ ⟨rfl, kept⟩ name binding
    exact ⟨rfl, lasting.declared kept name binding⟩
  assigned := by
    rintro machine _ ⟨rfl, kept⟩ name value changeable
    exact ⟨rfl, lasting.assigned kept name value changeable⟩
  opened := by
    rintro machine _ ⟨rfl, kept⟩ scope
    exact ⟨rfl, lasting.opened kept scope⟩
  closed := by
    rintro machine _ inside _ ⟨rfl, kept⟩ scope added control ⟨rfl, ended⟩
    exact ⟨rfl, lasting.closed kept control ended⟩

theorem itself_calls (lasting : Scopes.Lasting holds) :
    Calls fun _ : Unit => itself failures holds where
  failures _ _ := rfl
  ends _ _ := rfl
  leads := by
    rintro _ function _ machine _ rfl ⟨rfl, kept⟩ _
    refine ⟨(), ⟨rfl, fun arguments => ⟨rfl, lasting.entered kept _⟩, ?_⟩⟩
    rintro arguments inside _ added control ⟨rfl, ended⟩
    exact ⟨rfl, lasting.returned kept control ended⟩

theorem itself_counted (verbosity : Nat) {first second : Machine}
    (related : (itself failures holds).machines first second) :
    (itself failures holds).machines (Exec.observed script verbosity first)
      (Exec.observed script verbosity second) := by
  obtain ⟨rfl, kept⟩ := related
  exact ⟨rfl, kept⟩

/-- A property that every change of the scopes keeps holds for every statement that is come to. -/
theorem itself_watched (lasting : Scopes.Lasting holds) (verbosity : Nat) (instead : Exec Signal)
    (fuel : Nat) :
    (itself Eq holds).Evaluators script (Exec.evaluator script verbosity fuel)
      (Exec.watched script verbosity (fun _ _ machine => holds machine.scopes) instead fuel) := by
  have laws : (itself Eq holds).Laws script script :=
    itself_laws lasting (fun _ => rfl) (fun _ => rfl) rfl rfl
  have calls : Calls fun _ : Unit => itself Eq holds := itself_calls lasting
  have control (fuel : Nat) : (Exec.evaluator script verbosity fuel).KeepsControl :=
    controlDiscipline.evaluates script verbosity fuel
  induction fuel with
  | zero =>
      exact ⟨laws.spent, laws.spent, fun corresponds _ _ near _ _ =>
        calls.invoke (fun _ => laws) (control 0) (fun _ => laws.spent) () corresponds near,
        control 0, Laws.statement_refused script verbosity⟩
  | succ fuel ih =>
      have statements : (itself Eq holds).Pairs Eq
          (Exec.evaluator script verbosity (fuel + 1)).statement
          (Exec.watched script verbosity (fun _ _ machine => holds machine.scopes) instead
            (fuel + 1)).statement := by
        rintro machine _ ⟨rfl, kept⟩
        rw [Exec.watched_statement_of_holds script verbosity kept, ← Exec.dispatchBy_nextOf]
        exact laws.dispatch ih (fun _ => Laws.nextOf fun _ => rfl)
          (fun related _ => itself_counted verbosity related) ⟨rfl, kept⟩
      exact ⟨laws.disjunction ih (laws.call ih), statements, fun corresponds _ _ near _ _ =>
        calls.invoke (fun _ => laws) (control _) (fun _ => statements) () corresponds near,
        control _, Laws.statement_refused script verbosity⟩

/-- An outcome beside itself. -/
theorem Outcomes.of_itself {α : Type} {outcome twin : EStateM.Result Failure Machine α}
    (outcomes : (itself Eq holds).Outcomes Eq outcome twin) :
    twin = outcome ∧ holds (Exec.finalOf outcome).scopes := by
  cases outcomes with
  | succeeded same related =>
      obtain ⟨rfl, kept⟩ := related
      exact ⟨by rw [same], kept⟩
  | failed same related =>
      obtain ⟨rfl, kept⟩ := related
      exact ⟨by rw [same], kept⟩
  | excused ends => exact ends.elim

end Transport

end Onepass
