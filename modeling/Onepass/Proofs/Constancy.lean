import Onepass.Proofs.Scoping.Operation
import Onepass.Proofs.Transport.Self
import Onepass.Proofs.Typing.Statement

/-! # Constants keep their values

A constant is bound where it is declared and never again: as long as its scope is there, its name
stands for the same value in that scope, whatever is called, repeated or declared inside. The scopes
of an execution form one stack, those of suspended callers included; scopes are added to it and
removed from it at one end only, so what is in it keeps its place. Names are added to a scope behind
those that are there, and an assignment changes what its name stands for only after having refused
constants.
-/

set_option autoImplicit false

namespace Onepass

namespace Scope

/-- The constants of one scope are the same in another one. -/
def Upholds (first last : Scope) : Prop :=
  ∀ name binding, first.lookup? name = some binding → binding.constant = true →
    last.lookup? name = some binding

namespace Upholds

theorem refl (scope : Scope) : scope.Upholds scope :=
  fun _ _ found _ => found

theorem trans {first middle last : Scope} (start : first.Upholds middle)
    (rest : middle.Upholds last) : first.Upholds last :=
  fun name binding found constant => rest name binding (start name binding found constant) constant

theorem add (scope : Scope) (name : String) (binding : Binding) :
    scope.Upholds (scope.add name binding) := by
  intro other bound found _
  unfold lookup? Scope.add at *
  rw [List.lookup_append, found]
  rfl

end Upholds

/-- Assigning to what is not constant leaves the constants. -/
theorem Upholds.assign {scope : Scope} {name : String} (value : Value)
    (changeable : ∀ binding, scope.lookup? name = some binding → binding.constant = false) :
    scope.Upholds (scope.assign name value) := by
  intro other binding found constant
  have different : other ≠ name := by
    rintro rfl
    rw [changeable binding found] at constant
    cases constant
  rw [lookup_assign_of_ne scope value different, found]

end Scope

namespace Scopes

/-- Below so many newer scopes there are still those of an earlier time, with the same constants. -/
def Upholds (earlier later : Scopes) : Prop :=
  ∃ newer, List.Forall₂ Scope.Upholds earlier.stack (later.stack.drop newer)

theorem forall_upholds_refl (scopes : List Scope) : List.Forall₂ Scope.Upholds scopes scopes :=
  List.forall₂_same.2 fun scope _ => .refl scope

theorem forall_upholds_trans {first middle last : List Scope}
    (start : List.Forall₂ Scope.Upholds first middle)
    (rest : List.Forall₂ Scope.Upholds middle last) : List.Forall₂ Scope.Upholds first last := by
  induction start generalizing last with
  | nil => exact rest
  | cons head _ ih =>
      cases rest with
      | cons next others => exact .cons (head.trans next) (ih others)

theorem Upholds.refl (scopes : Scopes) : scopes.Upholds scopes :=
  ⟨0, forall_upholds_refl scopes.stack⟩

/-- Each of the scopes may be replaced by one with the same constants. -/
theorem Upholds.replaced {origin before after : Scopes} (upholds : origin.Upholds before)
    (same : List.Forall₂ Scope.Upholds before.stack after.stack) : origin.Upholds after := by
  obtain ⟨newer, kept⟩ := upholds
  exact ⟨newer, forall_upholds_trans kept (List.forall₂_drop newer same)⟩

theorem stack_declare (scopes : Scopes) (name : String) (binding : Binding) :
    List.Forall₂ Scope.Upholds scopes.stack (scopes.declare name binding).1.stack := by
  unfold declare
  split
  · exact forall_upholds_refl _
  · obtain ⟨globals, locals, suspended⟩ := scopes
    cases locals with
    | nil =>
        exact List.rel_append (forall_upholds_refl suspended.flatten)
          (.cons (.add globals name binding) .nil)
    | cons scope rest => exact .cons (.add scope name binding) (forall_upholds_refl _)

theorem forall_assignIn {name : String} {value : Value} {scopes changed : List Scope}
    (found : assignIn name value scopes = some changed)
    (changeable : ∀ binding, scopes.findSome? (·.lookup? name) = some binding →
      binding.constant = false) : List.Forall₂ Scope.Upholds scopes changed := by
  induction scopes generalizing changed with
  | nil => cases found
  | cons scope rest ih =>
      unfold assignIn at found
      split at found
      case _ has =>
        cases found
        refine .cons (.assign value fun binding bound => changeable binding ?_)
          (forall_upholds_refl rest)
        simp [bound]
      case _ lacks =>
        obtain ⟨others, inRest, rfl⟩ := Option.map_eq_some_iff.mp found
        have unknown : scope.lookup? name = none := by simpa [Scope.contains] using lacks
        refine .cons (.refl scope) (ih inRest fun binding bound => changeable binding ?_)
        simp [unknown, bound]

theorem stack_assign (scopes : Scopes) {name : String} (value : Value)
    (changeable : ∀ binding, scopes.lookup? name = some binding → binding.constant = false) :
    List.Forall₂ Scope.Upholds scopes.stack (scopes.assign name value).1.stack := by
  unfold assign
  split
  case _ locals found =>
    refine List.rel_append (forall_assignIn found fun binding bound => changeable binding ?_)
      (forall_upholds_refl _)
    simp [lookup?, visible, bound]
  case _ absent =>
    split
    · refine List.rel_append (forall_upholds_refl _) (List.rel_append (forall_upholds_refl _)
        (.cons (.assign value fun binding bound => changeable binding ?_) .nil))
      simp [lookup?, visible, findSome_of_assignIn absent, bound]
    · exact forall_upholds_refl _

/-- A scope that was opened since is removed without harm. -/
theorem Upholds.removed {origin before inside after : Scopes} (earlier : origin.Upholds before)
    (upholds : origin.Upholds inside) (opened : inside.stack.length = before.stack.length + 1)
    (rest : after.stack = inside.stack.tail) : origin.Upholds after := by
  obtain ⟨older, earlier⟩ := earlier
  obtain ⟨newer, kept⟩ := upholds
  have fits : origin.stack.length = before.stack.length - older := by simpa using earlier.length_eq
  have present : origin.stack.length = inside.stack.length - newer := by simpa using kept.length_eq
  have outermost : 0 < origin.stack.length := by
    rw [length_stack]
    omega
  obtain ⟨fewer, rfl⟩ : ∃ fewer, newer = fewer + 1 := ⟨newer - 1, by omega⟩
  refine ⟨fewer, ?_⟩
  rwa [rest, List.drop_tail]

theorem stack_enter (scopes : Scopes) : scopes.enter.stack = scopes.stack := by
  simp [stack, enter]

theorem upholds_lasting (origin : Scopes) : Scopes.Lasting origin.Upholds where
  declared upholds name binding := upholds.replaced (stack_declare _ name binding)
  assigned upholds name value changeable := upholds.replaced (stack_assign _ value changeable)
  opened := fun ⟨newer, kept⟩ _ => ⟨newer + 1, kept⟩
  closed := by
    intro machine inside scope added earlier control upholds
    have length : inside.scopes.locals.length = machine.scopes.locals.length + 1 :=
      control.locals_length
    have suspended : inside.scopes.suspended = machine.scopes.suspended := control.suspended
    apply earlier.removed upholds
    · rw [length_stack, length_stack, length, suspended]
      omega
    · unfold stack close
      rw [List.tail_append_of_ne_nil (List.ne_nil_of_length_eq_add_one length)]
  entered := by
    rintro scopes ⟨newer, kept⟩ scope
    refine ⟨newer + 1, ?_⟩
    change List.Forall₂ Scope.Upholds origin.stack (scopes.enter.stack.drop newer)
    rwa [stack_enter]
  returned := by
    intro machine inside function arguments added earlier control upholds
    obtain ⟨scope, single⟩ : ∃ scope, inside.scopes.locals = [scope] :=
      List.length_eq_one_iff.mp control.locals_length
    have suspended : inside.scopes.suspended =
        machine.scopes.locals :: machine.scopes.suspended := control.suspended
    apply earlier.removed upholds
    · rw [length_stack, length_stack, single, suspended]
      simp
      omega
    · unfold stack leave
      rw [single, suspended]
      simp

end Scopes

namespace Exec

/-! ## Executions -/

variable (script : Script) (verbosity fuel : Nat)

/-- Performed on a machine, an action keeps the constants that the machine has: they are the same for
every statement that it comes to, at any depth of calls, and when it ends. -/
def KeepsConstants {α : Type} (action : Evaluator → Exec α) (first : Machine) : Prop :=
  (∀ instead, action (watched script verbosity
      (fun _ _ machine => first.scopes.Upholds machine.scopes) instead fuel) first =
    action (evaluator script verbosity fuel) first) ∧
  first.scopes.Upholds (finalOf (action (evaluator script verbosity fuel) first)).scopes

variable {script verbosity fuel}

theorem keepsConstants_of_pairs {α : Type} {action : Evaluator → Exec α} {first : Machine}
    (pairs : ∀ {partner : Evaluator},
      (Transport.itself Eq first.scopes.Upholds).Evaluators script (evaluator script verbosity fuel)
        partner →
      (Transport.itself Eq first.scopes.Upholds).Pairs Eq (action (evaluator script verbosity fuel))
        (action partner)) : KeepsConstants script verbosity fuel action first := by
  have lasting := first.scopes.upholds_lasting
  have beside (instead : Exec Signal) :=
    (pairs (Transport.itself_watched lasting verbosity instead fuel)
      ⟨rfl, Scopes.Upholds.refl first.scopes⟩).of_itself
  exact ⟨fun instead => (beside instead).1, (beside (throw .exhausted)).2⟩

/-! ## Assignments -/

section

variable {evaluator : Evaluator} {machine ready : Machine} {binding : Binding}
  {selected : List (Token × Value)}

/-- What its indices do, they leave the name of a constant to stand for a constant. -/
theorem indices_constant (keeps : evaluator.KeepsControl)
    (indexed : indices script evaluator fuel machine = .ok selected ready) {name : String}
    (bound : machine.scopes.lookup? name = some binding) (constant : binding.constant = true) :
    ∃ found, ready.scopes.lookup? name = some found ∧ found.constant = true := by
  have kept := (controlDiscipline.indices script keeps fuel).ok indexed
  have entry := kept.lookup_entry name
  rw [bound] at entry
  cases found : ready.scopes.lookup? name with
  | none => rw [found] at entry; cases entry
  | some after => exact ⟨after, rfl, (kept.lookup_constant bound found).trans constant⟩

/-- An assignment to a constant gives nothing to store. -/
theorem preparedAssignment_of_constant (keeps : evaluator.KeepsControl)
    (named : script.kindAt machine.cursor = .identifier)
    (bound : machine.scopes.lookup? (script.tokenAt machine.cursor).word = some binding)
    (constant : binding.constant = true) {result : Token × Target × Value} {final : Machine} :
    preparedAssignment script evaluator fuel machine ≠ .ok result final := by
  intro prepared
  have rest := advance_bind_ok (by simp [named]) prepared
  obtain ⟨_, before, looked, rest⟩ := bind_ok rest
  obtain ⟨-, rfl⟩ := bindingOf_ok looked
  obtain ⟨selected, ready, indexed, rest⟩ := bind_ok rest
  obtain ⟨found, known, constant⟩ := indices_constant keeps indexed bound constant
  obtain ⟨-, rest⟩ := guarded_ok (current_bind_ok rest)
  obtain ⟨_, moved, advanced, rest⟩ := bind_ok rest
  obtain ⟨again, _, looked, rest⟩ := bind_ok rest
  have kept := (controlDiscipline.advance script).ok advanced
  have same := kept.lookup_constant known (bindingOf_ok looked).1
  exact (guarded_ok rest).1 (same.trans constant)

/-- When the indices were evaluated and an operator follows, an assignment to a constant is refused, and
nothing more was done. -/
theorem preparedAssignment_refused (keeps : evaluator.KeepsControl)
    (named : script.kindAt machine.cursor = .identifier)
    (bound : machine.scopes.lookup? (script.tokenAt machine.cursor).word = some binding)
    (constant : binding.constant = true)
    (indexed : indices script evaluator fuel { machine with cursor := machine.cursor + 1 } =
      .ok selected ready)
    (operator : (script.kindAt ready.cursor).isAssignment = true ∨
      (script.kindAt ready.cursor).isStep = true) :
    preparedAssignment script evaluator fuel machine =
      .error (.diagnostic ⟨.constantReassigned (script.tokenAt machine.cursor).word,
        (script.tokenAt machine.cursor).position⟩) { ready with cursor := ready.cursor + 1 } := by
  obtain ⟨found, known, constant⟩ := indices_constant keeps indexed bound constant
  have proper : script.kindAt ready.cursor ≠ .endOfInput := by
    intro ended
    simp [ended, Kind.isAssignment, Kind.isStep] at operator
  have passed : ¬ (!(script.tokenAt ready.cursor).kind.isAssignment &&
      !(script.tokenAt ready.cursor).kind.isStep) = true := by
    unfold Script.kindAt at operator
    rcases operator with assigns | steps
    · simp [assigns]
    · simp [steps]
  have first : bindingOf (script.tokenAt machine.cursor)
      { machine with cursor := machine.cursor + 1 } = .ok binding _ := bindingOf_eq bound
  have again : bindingOf (script.tokenAt machine.cursor)
      { ready with cursor := ready.cursor + 1 } = .ok found _ := bindingOf_eq known
  unfold preparedAssignment
  rw [bind_of_ok (advance_eq (by simp [named])), bind_of_ok first, bind_of_ok indexed]
  change (if (!(script.tokenAt ready.cursor).kind.isAssignment &&
      !(script.tokenAt ready.cursor).kind.isStep) = true then _ else _ : Exec _) ready = _
  rw [if_neg passed, bind_of_ok (advance_eq proper), bind_of_ok again, if_pos constant]
  rfl

theorem statement_of_constant (assigns : script.assigns machine.cursor)
    (bound : machine.scopes.lookup? (script.tokenAt machine.cursor).word = some binding)
    (constant : binding.constant = true) {signal : Signal} {final : Machine} :
    statement script verbosity fuel machine ≠ .ok signal final := by
  cases fuel with
  | zero => exact nofun
  | succ fuel =>
      have keeps := controlDiscipline.evaluates script verbosity fuel
      have named : script.kindAt (observed script verbosity machine).cursor = .identifier := assigns.1
      intro ran
      change dispatch script verbosity (Exec.evaluator script verbosity fuel) fuel machine = _ at ran
      rw [dispatch_assignment script _ verbosity fuel assigns] at ran
      obtain ⟨_, _, assigned, -⟩ := bind_ok ran
      obtain ⟨_, _, prepared, -⟩ := bind_ok assigned
      exact preparedAssignment_of_constant keeps named bound constant prepared

theorem statement_refused (assigns : script.assigns machine.cursor)
    (bound : machine.scopes.lookup? (script.tokenAt machine.cursor).word = some binding)
    (constant : binding.constant = true)
    (indexed : indices script (Exec.evaluator script verbosity fuel) fuel
      { observed script verbosity machine with cursor := machine.cursor + 1 } = .ok selected ready)
    (operator : (script.kindAt ready.cursor).isAssignment = true ∨
      (script.kindAt ready.cursor).isStep = true) :
    statement script verbosity (fuel + 1) machine =
      .error (.diagnostic ⟨.constantReassigned (script.tokenAt machine.cursor).word,
        (script.tokenAt machine.cursor).position⟩) { ready with cursor := ready.cursor + 1 } := by
  have keeps := controlDiscipline.evaluates script verbosity fuel
  have prepared : preparedAssignment script (Exec.evaluator script verbosity fuel) fuel
      (observed script verbosity machine) = _ :=
    preparedAssignment_refused keeps assigns.1 bound constant indexed operator
  change dispatch script verbosity (Exec.evaluator script verbosity fuel) fuel machine = _
  rw [dispatch_assignment script _ verbosity fuel assigns]
  exact bind_of_error (bind_of_error prepared _) _

end

/-- A constant is never rebound. Whatever part of a program is executed on a machine, an expression, a
statement, the rest of a block, of the body of a call or of the program, the constants of that machine
stand for the same values as long as their scopes are there: for every statement that is come to, and at
the end. An assignment whose name stands for a constant never succeeds; once its indices were evaluated
and an operator follows, it is refused before anything else is evaluated or changed. -/
theorem constant_never_rebound (script : Script) (verbosity fuel : Nat) :
    (∀ (first : Machine) (rounds finish : Nat),
      KeepsConstants script verbosity fuel (·.expression) first ∧
      KeepsConstants script verbosity fuel (·.statement) first ∧
      KeepsConstants script verbosity fuel (fun evaluator => block script evaluator.statement rounds)
        first ∧
      KeepsConstants script verbosity fuel
        (fun evaluator => statementsUntil evaluator.statement finish rounds) first ∧
      KeepsConstants script verbosity fuel (fun evaluator => program script evaluator rounds) first) ∧
    (∀ (machine : Machine) (binding : Binding), script.assigns machine.cursor →
      machine.scopes.lookup? (script.tokenAt machine.cursor).word = some binding →
      binding.constant = true →
        (∀ signal final, statement script verbosity fuel machine ≠ .ok signal final) ∧
        ∀ selected ready,
          indices script (evaluator script verbosity fuel) fuel
              { observed script verbosity machine with cursor := machine.cursor + 1 } =
            .ok selected ready →
          (script.kindAt ready.cursor).isAssignment = true ∨
            (script.kindAt ready.cursor).isStep = true →
          statement script verbosity (fuel + 1) machine =
            .error (.diagnostic ⟨.constantReassigned (script.tokenAt machine.cursor).word,
              (script.tokenAt machine.cursor).position⟩)
              { ready with cursor := ready.cursor + 1 }) := by
  constructor
  · intro first rounds finish
    have laws : (Transport.itself Eq first.scopes.Upholds).Laws script script :=
      Transport.itself_laws first.scopes.upholds_lasting (fun _ => rfl) (fun _ => rfl) rfl rfl
    exact ⟨keepsConstants_of_pairs (·.expression), keepsConstants_of_pairs (·.statement),
      keepsConstants_of_pairs fun evaluators => laws.block evaluators.statement,
      keepsConstants_of_pairs fun evaluators => laws.statementsUntil evaluators.statement rfl,
      keepsConstants_of_pairs fun evaluators =>
        laws.program evaluators (fun same => congrArg script.kindAt same.symm) rounds⟩
  · intro machine binding assigns bound constant
    exact ⟨fun _ _ => statement_of_constant assigns bound constant,
      fun _ _ indexed operator => statement_refused assigns bound constant indexed operator⟩

/-- An assignment to a constant stops behind its operator. -/
theorem constant_never_rebound_by_sum :
    let script := Script.ofSource "c += 2".toList
    let binding : Binding := ⟨.number .one, some (.simple "number"), true⟩
    let machine : Machine :=
      { Machine.initial with scopes := (Scopes.initial.declare "c" binding).1 }
    script.assigns machine.cursor ∧ machine.scopes.lookup? "c" = some binding ∧
      statement script 0 6 machine =
        .error (.diagnostic ⟨.constantReassigned "c", ⟨1, 1⟩⟩)
          { observed script 0 machine with cursor := 2 } := by
  intro script binding machine
  have token : script.tokenAt machine.cursor = ⟨.identifier, some "c", ⟨1, 1⟩⟩ := by decide +kernel
  have assigns : script.assigns machine.cursor := ⟨by decide +kernel, by decide +kernel⟩
  have bound : machine.scopes.lookup? "c" = some binding := by decide +kernel
  have indexed : indices script (evaluator script 0 5) 5
      { observed script 0 machine with cursor := machine.cursor + 1 } =
        .ok [] { observed script 0 machine with cursor := 1 } := by
    have plain : script.kindAt 1 ≠ .symbol .leftBracket := by decide +kernel
    change (if script.kindAt 1 = .symbol .leftBracket then _ else Pure.pure [] : Exec _) _ = _
    rw [if_neg plain]
    rfl
  have refused := ((constant_never_rebound script 0 5).2 machine binding assigns
    (by rw [token]; exact bound) rfl).2 _ _ indexed (.inl (by decide +kernel))
  rw [token] at refused
  exact ⟨assigns, bound, refused⟩

end Exec

end Onepass
