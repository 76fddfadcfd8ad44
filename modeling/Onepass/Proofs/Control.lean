import Onepass.Proofs.Discipline.Statement

/-! # The control state is restored

Scopes, frames and the loop count are pushed and popped by blocks, iterations and calls that may end
in any way. Whatever the outcome, an expression leaves them as they were, and a statement at most
adds one name to the innermost scope, by a declaration that succeeds. Values play no role here: a
scope is compared by its names with their types and constant flags.
-/

set_option autoImplicit false

namespace Onepass

/-- What a declaration fixes about a name: its type, if it has one, and whether it is constant. -/
abbrev Entry := String × Option DeclaredType × Bool

/-- The names of a scope with what their declarations fixed. -/
def Scope.signature (scope : Scope) : List Entry :=
  scope.bindings.map fun entry => (entry.1, entry.2.type, entry.2.constant)

/-- The scopes outside the innermost one. -/
def Scopes.outer (scopes : Scopes) : List Scope :=
  scopes.visible.tail

/-! ## Signatures of scopes -/

theorem Scope.contains_iff (scope : Scope) (name : String) :
    scope.contains name = true ↔ name ∈ scope.signature.map Prod.fst := by
  unfold contains lookup? signature
  simp [List.lookup_isSome_iff]

theorem Scope.contains_congr {left right : Scope} (same : left.signature = right.signature)
    (name : String) : left.contains name = right.contains name := by
  rw [Bool.eq_iff_iff, contains_iff, contains_iff, same]

@[simp] theorem Scope.signature_add (scope : Scope) (name : String) (binding : Binding) :
    (scope.add name binding).signature =
      scope.signature ++ [(name, binding.type, binding.constant)] := by
  simp [add, signature]

@[simp] theorem Scope.signature_assign (scope : Scope) (name : String) (value : Value) :
    (scope.assign name value).signature = scope.signature := by
  obtain ⟨bindings⟩ := scope
  unfold assign signature
  induction bindings with
  | nil => rfl
  | cons entry rest ih =>
      simp only [assign.replaced]
      split
      · rfl
      · simp only [List.map_cons, ih]

namespace Scopes

theorem visible_eq (scopes : Scopes) : scopes.visible = scopes.current :: scopes.outer := by
  obtain ⟨globals, locals, suspended⟩ := scopes
  cases locals <;> rfl

theorem visible_close {scopes : Scopes} (opened : scopes.locals ≠ []) :
    scopes.close.visible = scopes.outer := by
  obtain ⟨globals, locals, suspended⟩ := scopes
  cases locals with
  | nil => exact absurd rfl opened
  | cons scope rest => rfl

theorem pop_eq_close {scopes : Scopes} (opened : scopes.locals ≠ []) :
    ∃ removed, scopes.pop = .ok (removed, scopes.close) := by
  obtain ⟨globals, locals, suspended⟩ := scopes
  cases locals with
  | nil => exact absurd rfl opened
  | cons scope rest => exact ⟨scope, rfl⟩

theorem signatures_assignIn {name : String} {value : Value} {scopes changed : List Scope}
    (found : assignIn name value scopes = some changed) :
    changed.map Scope.signature = scopes.map Scope.signature := by
  induction scopes generalizing changed with
  | nil => cases found
  | cons scope rest ih =>
      unfold assignIn at found
      split at found
      · cases found
        simp
      · obtain ⟨others, inRest, rfl⟩ := Option.map_eq_some_iff.mp found
        simp [ih inRest]

theorem signatures_assign (scopes : Scopes) (name : String) (value : Value) :
    (scopes.assign name value).1.visible.map Scope.signature =
      scopes.visible.map Scope.signature := by
  unfold assign visible
  split
  case _ locals found => simp [signatures_assignIn found]
  case _ => split <;> simp

@[simp] theorem length_locals_assign (scopes : Scopes) (name : String) (value : Value) :
    (scopes.assign name value).1.locals.length = scopes.locals.length := by
  unfold assign
  split
  case _ locals found =>
    simpa using congrArg List.length (signatures_assignIn found)
  case _ => split <;> rfl

@[simp] theorem suspended_assign (scopes : Scopes) (name : String) (value : Value) :
    (scopes.assign name value).1.suspended = scopes.suspended := by
  unfold assign
  split
  · rfl
  · split <;> rfl

end Scopes

/-! ## What is restored -/

/-- The control state of two machines is the same, up to names added to the innermost scope: the
stack of scopes has its depth, the scopes outside the innermost one have exactly their names, types
and flags, the scopes of the callers are untouched, and so are the frames and the loop count. -/
structure Machine.ControlKept (added : List Entry) (first last : Machine) : Prop where
  depth : last.scopes.depth = first.scopes.depth
  innermost : last.scopes.current.signature = first.scopes.current.signature ++ added
  outer : last.scopes.outer.map Scope.signature = first.scopes.outer.map Scope.signature
  suspended : last.scopes.suspended = first.scopes.suspended
  frames : last.frames = first.frames
  loopDepth : last.loopDepth = first.loopDepth

namespace Machine.ControlKept

variable {first middle last : Machine}

theorem refl (machine : Machine) : ControlKept [] machine machine :=
  ⟨rfl, (List.append_nil _).symm, rfl, rfl, rfl, rfl⟩

theorem trans {before after : List Entry} (start : ControlKept before first middle)
    (rest : ControlKept after middle last) : ControlKept (before ++ after) first last where
  depth := rest.depth.trans start.depth
  innermost := by rw [rest.innermost, start.innermost, List.append_assoc]
  outer := rest.outer.trans start.outer
  suspended := rest.suspended.trans start.suspended
  frames := rest.frames.trans start.frames
  loopDepth := rest.loopDepth.trans start.loopDepth

theorem locals_length {added : List Entry} (kept : ControlKept added first last) :
    last.scopes.locals.length = first.scopes.locals.length :=
  Nat.succ_inj.mp kept.depth

theorem of_eq (scopes : last.scopes = first.scopes) (frames : last.frames = first.frames)
    (loopDepth : last.loopDepth = first.loopDepth) : ControlKept [] first last := by
  refine ⟨?_, ?_, ?_, ?_, frames, loopDepth⟩ <;> rw [scopes]
  exact (List.append_nil _).symm

theorem of_signatures
    (depth : last.scopes.depth = first.scopes.depth)
    (visible : last.scopes.visible.map Scope.signature = first.scopes.visible.map Scope.signature)
    (suspended : last.scopes.suspended = first.scopes.suspended)
    (frames : last.frames = first.frames) (loopDepth : last.loopDepth = first.loopDepth) :
    ControlKept [] first last := by
  rw [Scopes.visible_eq, Scopes.visible_eq, List.map_cons, List.map_cons, List.cons.injEq] at visible
  exact ⟨depth, by rw [visible.1, List.append_nil], visible.2, suspended, frames, loopDepth⟩

/-- Declaring a name that the innermost scope does not have adds it there. -/
theorem declare_fresh {machine : Machine} {name : String} {binding : Binding}
    (fresh : machine.scopes.current.contains name = false) :
    ControlKept [(name, binding.type, binding.constant)] machine
      { machine with scopes := (machine.scopes.declare name binding).1 } := by
  unfold Scopes.declare
  rw [fresh]
  obtain ⟨cursor, ⟨globals, locals, suspended⟩⟩ := machine
  cases locals <;> exact ⟨rfl, Scope.signature_add .., rfl, rfl, rfl, rfl⟩

theorem declare (machine : Machine) (name : String) (binding : Binding) :
    ∃ added, ControlKept added machine
      { machine with scopes := (machine.scopes.declare name binding).1 } := by
  cases taken : machine.scopes.current.contains name with
  | false => exact ⟨_, declare_fresh taken⟩
  | true =>
      refine ⟨[], ?_⟩
      rw [Scopes.declare, taken]
      exact refl machine

/-- Closing the scope that was opened leaves the scopes outside it. -/
theorem close {added : List Entry} {scope : Scope}
    (inside : ControlKept added { first with scopes := first.scopes.push scope } last) :
    ControlKept [] first (Exec.closeScope last) := by
  have length : last.scopes.locals.length = first.scopes.locals.length + 1 := inside.locals_length
  have opened : last.scopes.locals ≠ [] := by
    intro none
    rw [none] at length
    cases length
  refine of_signatures ?_ ?_ inside.suspended inside.frames inside.loopDepth
  · simp [Exec.closeScope, Scopes.close, Scopes.depth, length]
  · exact (congrArg (List.map Scope.signature) (Scopes.visible_close opened)).trans inside.outer

/-- Returning from a call puts the scopes of the caller back; the global scope is shared. -/
theorem leave {added : List Entry} {function : Function} {arguments : List Value}
    (inside : ControlKept added (Exec.enterCall function arguments first) last) :
    ControlKept [] first (Exec.leaveCall first.cursor first.loopDepth last) := by
  obtain ⟨scope, single⟩ : ∃ scope, last.scopes.locals = [scope] :=
    List.length_eq_one_iff.mp inside.locals_length
  have suspended : last.scopes.suspended = first.scopes.locals :: first.scopes.suspended :=
    inside.suspended
  have globals : last.scopes.globals.signature = first.scopes.globals.signature := by
    have outer := inside.outer
    rw [Scopes.outer, Scopes.visible, single] at outer
    exact (List.cons.inj outer).1
  have left : last.scopes.leave =
      { last.scopes with locals := first.scopes.locals, suspended := first.scopes.suspended } := by
    unfold Scopes.leave
    rw [suspended]
  refine of_signatures ?_ ?_ ?_ ?_ rfl
  · simp [Exec.leaveCall, left, Scopes.depth]
  · simp [Exec.leaveCall, left, Scopes.visible, globals]
  · simp [Exec.leaveCall, left]
  · simp [Exec.leaveCall, inside.frames, Exec.enterCall]

end Machine.ControlKept

/-! ## What names stand for -/

theorem Scope.lookup_signature (scope : Scope) (name : String) :
    scope.signature.lookup name =
      (scope.lookup? name).map fun binding => (binding.type, binding.constant) := by
  obtain ⟨bindings⟩ := scope
  unfold signature lookup?
  induction bindings with
  | nil => rfl
  | cons entry rest ih =>
      obtain ⟨key, binding⟩ := entry
      simp only [List.map_cons, List.lookup_cons]
      cases name == key with
      | true => rfl
      | false => exact ih

theorem Scopes.lookup_signatures (scopes : Scopes) (name : String) :
    (scopes.visible.map Scope.signature).findSome? (·.lookup name) =
      (scopes.lookup? name).map fun binding => (binding.type, binding.constant) := by
  unfold lookup?
  rw [List.findSome?_map, List.map_findSome?]
  congr 1
  funext scope
  exact scope.lookup_signature name

namespace Machine.ControlKept

variable {first last : Machine} (kept : first.ControlKept [] last) {name : String}
  {before after : Binding}

include kept

/-- The control state fixes what the declaration of every name fixed. -/
theorem lookup_entry (name : String) :
    (last.scopes.lookup? name).map (fun binding => (binding.type, binding.constant)) =
      (first.scopes.lookup? name).map fun binding => (binding.type, binding.constant) := by
  have same : last.scopes.visible.map Scope.signature = first.scopes.visible.map Scope.signature := by
    rw [Scopes.visible_eq, Scopes.visible_eq, List.map_cons, List.map_cons, kept.innermost,
      kept.outer, List.append_nil]
  rw [← Scopes.lookup_signatures, ← Scopes.lookup_signatures, same]

theorem lookup_type (known : first.scopes.lookup? name = some before)
    (found : last.scopes.lookup? name = some after) : after.type = before.type := by
  have looked := kept.lookup_entry name
  rw [known, found] at looked
  exact congrArg Prod.fst (Option.some.inj looked)

theorem lookup_constant (known : first.scopes.lookup? name = some before)
    (found : last.scopes.lookup? name = some after) : after.constant = before.constant := by
  have looked := kept.lookup_entry name
  rw [known, found] at looked
  exact congrArg Prod.snd (Option.some.inj looked)

end Machine.ControlKept

/-- Everything but a declaration keeps the control state, and a declaration adds to the innermost
scope. -/
theorem controlDiscipline :
    Discipline (Machine.ControlKept []) (fun first last => ∃ added, first.ControlKept added last) where
  refl := .refl
  trans start rest := start.trans rest
  weaken kept := ⟨[], kept⟩
  growing_trans := fun ⟨before, start⟩ ⟨after, rest⟩ => ⟨before ++ after, start.trans rest⟩
  moved _ _ := .of_eq rfl rfl rfl
  observed _ _ _ := .of_eq rfl rfl rfl
  wrote _ _ := .of_eq rfl rfl rfl
  allocated _ _ _ := .of_eq rfl rfl rfl
  retagged _ _ _ := .of_eq rfl rfl rfl
  written _ _ _ _ := .of_eq rfl rfl rfl
  assigned machine name value :=
    .of_signatures (congrArg (· + 1) (machine.scopes.length_locals_assign name value))
      (machine.scopes.signatures_assign name value) (machine.scopes.suspended_assign name value)
      rfl rfl
  declared machine name binding := Machine.ControlKept.declare machine name binding
  registered _ _ _ _ := .of_eq rfl rfl rfl
  closed _ _ _ := fun ⟨_, inside⟩ => inside.close
  iterated machine final inside :=
    ⟨inside.depth, inside.innermost, inside.outer, inside.suspended, inside.frames, by
      rw [inside.loopDepth]
      exact Nat.add_sub_cancel ..⟩
  gave _ _ := .of_eq rfl rfl rfl
  returned _ _ _ _ := fun ⟨_, inside⟩ => inside.leave

/-- An evaluator whose expressions keep the control state and whose statements only add to the
innermost scope. -/
abbrev Evaluator.KeepsControl (evaluator : Evaluator) : Prop :=
  evaluator.Keeps (Machine.ControlKept []) fun first last => ∃ added, first.ControlKept added last

namespace Exec

open Machine (ControlKept)

variable {script : Script} {evaluator : Evaluator}

/-! ## Declarations -/

/-- The name that a declaration is about to add is still new when it was read to its end, although
its initial value may have called functions. -/
theorem declaredVariable_fresh (keeps : evaluator.KeepsControl) {fuel : Nat}
    {machine final : Machine} {declared : Token × Binding}
    (read : declaredVariable script evaluator fuel machine = .ok declared final) :
    final.scopes.current.contains declared.1.word = false := by
  obtain ⟨constant, afterDollar, -, rest⟩ := bind_ok read
  obtain ⟨name, afterName, -, rest⟩ := bind_ok rest
  obtain ⟨fresh, rest⟩ := guarded_ok (get_bind_ok rest)
  obtain ⟨_, afterColon, colon, rest⟩ := bind_ok rest
  obtain ⟨type, afterType, typeRead, rest⟩ := bind_ok rest
  obtain ⟨-, rest⟩ := guarded_ok rest
  obtain ⟨_, afterEqual, equal, rest⟩ := bind_ok rest
  obtain ⟨value, afterValue, evaluated, rest⟩ := bind_ok (current_bind_ok rest)
  obtain ⟨_, adopted, adoption, rest⟩ := bind_ok rest
  obtain ⟨rfl, rfl⟩ := pure_ok rest
  have kept : ControlKept [] afterName final :=
    (controlDiscipline.expectSymbol script _).ok colon
      |>.trans ((controlDiscipline.readType script).ok typeRead)
      |>.trans ((controlDiscipline.expectSymbol script _).ok equal)
      |>.trans ((controlDiscipline.initializer script keeps type fuel).ok evaluated)
      |>.trans ((controlDiscipline.adopt value _ _).ok adoption)
  have signature : final.scopes.current.signature = afterName.scopes.current.signature := by
    rw [kept.innermost]
    exact List.append_nil _
  rw [Scope.contains_congr signature]
  simpa using fresh

/-- A declaration of a variable either fails and adds nothing, or adds its name. -/
theorem variableDeclaration_control (keeps : evaluator.KeepsControl) (fuel : Nat)
    (machine : Machine) :
    (∃ failure final, variableDeclaration script evaluator fuel machine = .error failure final ∧
        ControlKept [] machine final) ∨
      ∃ entry final, variableDeclaration script evaluator fuel machine = .ok () final ∧
        ControlKept [entry] machine final := by
  have kept := controlDiscipline.declaredVariable script keeps fuel machine
  cases read : declaredVariable script evaluator fuel machine with
  | error failure middle =>
      rw [read] at kept
      exact .inl ⟨failure, middle, bind_of_error read _, kept⟩
  | ok declared middle =>
      rw [read] at kept
      obtain ⟨name, binding⟩ := declared
      have added : ControlKept [(name.word, binding.type, binding.constant)] middle
          { middle with scopes := (middle.scopes.declare name.word binding).1 } :=
        .declare_fresh (declaredVariable_fresh keeps read)
      exact .inr ⟨_, _, bind_of_ok read _, kept.trans added⟩

/-- A statement keeps the control state, or it declares a variable, ends normally and adds one
name. -/
theorem dispatch_control (keeps : evaluator.KeepsControl) (verbosity fuel : Nat)
    (machine : Machine) :
    ControlKept [] machine (finalOf (dispatch script verbosity evaluator fuel machine)) ∨
      ∃ entry final, script.declaresVariable machine.cursor ∧
        dispatch script verbosity evaluator fuel machine = .ok .normal final ∧
          ControlKept [entry] machine final := by
  by_cases declares : script.declaresVariable machine.cursor
  · rw [Discipline.dispatch_declaration script declares]
    have begun : ControlKept [] machine (observed script verbosity machine) :=
      controlDiscipline.begins script verbosity machine
    rcases variableDeclaration_control keeps fuel (observed script verbosity machine) with
      ⟨failure, middle, ran, kept⟩ | ⟨entry, middle, ran, added⟩
    · left
      rw [simple, bind_of_error ran]
      exact begun.trans kept
    · right
      refine ⟨entry, { middle with cursor := if script.kindAt middle.cursor = .symbol .semicolon
        then middle.cursor + 1 else middle.cursor }, declares, ?_, ?_⟩
      · rw [simple, bind_of_ok ran, bind_of_ok (acceptSemicolon_eq script middle)]
        rfl
      · exact (begun.trans added).trans (.of_eq rfl rfl rfl)
  · exact .inl (controlDiscipline.dispatch_steady script keeps verbosity fuel declares)

theorem statement_control (script : Script) (verbosity fuel : Nat) (machine : Machine) :
    ControlKept [] machine (finalOf (statement script verbosity fuel machine)) ∨
      ∃ entry final, script.declaresVariable machine.cursor ∧
        statement script verbosity fuel machine = .ok .normal final ∧
          ControlKept [entry] machine final := by
  cases fuel with
  | zero => exact .inl (.refl machine)
  | succ fuel =>
      exact dispatch_control (controlDiscipline.evaluates script verbosity fuel) verbosity fuel machine

/-- The scope that a body opened is there to be closed when its content ends in any way. -/
theorem bodyContent_opened (keeps : evaluator.KeepsControl) (fuel : Nat) (machine : Machine)
    (scope : Scope) :
    (finalOf (bodyContent script evaluator fuel
      { machine with scopes := machine.scopes.push scope })).scopes.locals ≠ [] := by
  obtain ⟨added, kept⟩ := controlDiscipline.bodyContent script keeps fuel
    { machine with scopes := machine.scopes.push scope }
  intro closed
  have length := kept.locals_length
  rw [closed] at length
  cases length

/-- Every expression and every statement restores the control state, whatever its outcome: an
expression altogether, and a statement up to one name in the innermost scope, which only a
declaration adds that succeeds. A declaration that was read to its end never finds its name taken,
and the content of a body never ends without the scope that the body opened. -/
theorem control_restored (script : Script) (verbosity fuel : Nat) (machine : Machine) :
    ControlKept [] machine (finalOf (expression script verbosity fuel machine)) ∧
    (ControlKept [] machine (finalOf (statement script verbosity fuel machine)) ∨
      ∃ entry final, script.declaresVariable machine.cursor ∧
        statement script verbosity fuel machine = .ok .normal final ∧
          ControlKept [entry] machine final) ∧
    (∀ declared middle,
      declaredVariable script (Exec.evaluator script verbosity fuel) fuel machine = .ok declared middle →
        (middle.scopes.declare declared.1.word declared.2).2 = true) ∧
    (∀ scope final,
      finalOf (bodyContent script (Exec.evaluator script verbosity fuel) fuel
        { machine with scopes := machine.scopes.push scope }) = final →
          ∃ removed, final.scopes.pop = .ok (removed, (closeScope final).scopes)) := by
  have keeps := controlDiscipline.evaluates script verbosity fuel
  refine ⟨keeps.expression machine, statement_control script verbosity fuel machine, ?_, ?_⟩
  · intro declared middle read
    rw [Scopes.declare, declaredVariable_fresh keeps read]
    rfl
  · rintro scope final rfl
    exact Scopes.pop_eq_close (bodyContent_opened keeps fuel machine scope)

end Exec

end Onepass
