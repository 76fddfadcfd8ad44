import Onepass.Proofs.Scoping.Operation
import Onepass.Proofs.Typing.Store

/-! # Nesting of blocks and calls

Operations are balanced if they close the scopes that they open, in the reverse order, and leave the calls
that they enter; what is opened inside of a call need not be closed there. Balanced operations touch the
scopes that were there before in no other way than by the edits that reach them, and inside of a call the
global scope is the only one of those that can be reached. Whatever a script does to scopes is balanced.
-/

set_option autoImplicit false

namespace Onepass

/-! ## Balanced operations -/

namespace ScopeOperation

/-- The operation neither opens nor removes scopes. -/
def IsAccess : ScopeOperation → Prop
  | .lookup _ | .declare .. | .assign .. => True
  | _ => False

/-- The operation neither begins nor ends a call. -/
def IsLocal (operation : ScopeOperation) : Prop :=
  operation ≠ .enter ∧ operation ≠ .leave

/-- Every call is left that is entered, and no other. -/
inductive Enclosed : List ScopeOperation → Prop
  | nil : Enclosed []
  | single {operation : ScopeOperation} {rest : List ScopeOperation} (inside : operation.IsLocal)
      (further : Enclosed rest) : Enclosed (operation :: rest)
  | call {body rest : List ScopeOperation} (inside : Enclosed body) (further : Enclosed rest) :
      Enclosed (.enter :: body ++ .leave :: rest)

/-- Every scope is closed that is opened, every call is left that is entered, and no other. -/
inductive Balanced : List ScopeOperation → Prop
  | nil : Balanced []
  | single {operation : ScopeOperation} {rest : List ScopeOperation} (access : operation.IsAccess)
      (further : Balanced rest) : Balanced (operation :: rest)
  | block {scope : Scope} {body rest : List ScopeOperation} (inside : Balanced body)
      (further : Balanced rest) : Balanced (.push scope :: body ++ .pop :: rest)
  | call {body rest : List ScopeOperation} (inside : Enclosed body) (further : Balanced rest) :
      Balanced (.enter :: body ++ .leave :: rest)

variable {first second operations : List ScopeOperation}

theorem IsAccess.isLocal {operation : ScopeOperation} (access : operation.IsAccess) :
    operation.IsLocal := by
  constructor <;> rintro rfl <;> exact access

theorem Enclosed.append (start : Enclosed first) (rest : Enclosed second) :
    Enclosed (first ++ second) := by
  induction start with
  | nil => exact rest
  | single inside _ ih => exact .single inside ih
  | call inside _ _ ih =>
      rw [List.append_assoc]
      exact .call inside ih

theorem Balanced.append (start : Balanced first) (rest : Balanced second) :
    Balanced (first ++ second) := by
  induction start with
  | nil => exact rest
  | single access _ ih => exact .single access ih
  | block inside _ _ ih =>
      rw [List.append_assoc]
      exact .block inside ih
  | call inside _ ih =>
      rw [List.append_assoc]
      exact .call inside ih

/-- What is balanced may stand inside of a call. -/
theorem Balanced.enclosed (balanced : Balanced operations) : Enclosed operations := by
  induction balanced with
  | nil => exact .nil
  | single access _ ih => exact .single access.isLocal ih
  | block _ _ inside further =>
      exact .single ⟨nofun, nofun⟩ (inside.append (.single ⟨nofun, nofun⟩ further))
  | call inside _ ih => exact .call inside ih

end ScopeOperation

namespace Scopes

open ScopeOperation (Enclosed Balanced IsAccess IsLocal)

variable {scopes : Scopes} {operations body : List ScopeOperation}

/-! ## What is left of the stacks -/

/-- How many local scopes there are of the running function and of each caller. -/
def shape (scopes : Scopes) : List Nat :=
  scopes.locals.length :: scopes.suspended.map List.length

theorem length_numbered_congr {other : Scopes} (same : other.shape = scopes.shape) :
    other.numbered.length = scopes.numbered.length := by
  obtain ⟨locals, suspended⟩ := List.cons.inj same
  rw [length_numbered, length_numbered, base, base, List.length_flatten, List.length_flatten, locals,
    suspended]

theorem base_le_length_numbered (scopes : Scopes) : scopes.base ≤ scopes.numbered.length := by
  rw [length_numbered]
  exact Nat.le_add_right ..

theorem perform_pop (scopes : Scopes) : scopes.perform .pop = scopes.close := by
  obtain ⟨globals, locals, suspended⟩ := scopes
  cases locals <;> rfl

@[simp] theorem suspended_declare (scopes : Scopes) (name : String) (binding : Binding) :
    (scopes.declare name binding).1.suspended = scopes.suspended := by
  obtain ⟨globals, locals, suspended⟩ := scopes
  unfold declare
  split
  · rfl
  · cases locals <;> rfl

@[simp] theorem length_locals_declare (scopes : Scopes) (name : String) (binding : Binding) :
    (scopes.declare name binding).1.locals.length = scopes.locals.length := by
  obtain ⟨globals, locals, suspended⟩ := scopes
  unfold declare
  split
  · rfl
  · cases locals <;> rfl

theorem suspended_perform {operation : ScopeOperation} (inside : operation.IsLocal) :
    (scopes.perform operation).suspended = scopes.suspended := by
  cases operation with
  | push scope => rfl
  | pop => rw [perform_pop]; rfl
  | lookup name => rfl
  | declare name binding => exact suspended_declare ..
  | assign name value => exact suspended_assign ..
  | enter => exact absurd rfl inside.1
  | leave => exact absurd rfl inside.2

theorem shape_perform {operation : ScopeOperation} (access : operation.IsAccess) :
    (scopes.perform operation).shape = scopes.shape := by
  cases operation with
  | lookup name => rfl
  | declare name binding => simp [perform, shape]
  | assign name value => simp [perform, shape]
  | _ => exact access.elim

theorem suspended_run (enclosed : Enclosed operations) (scopes : Scopes) :
    (scopes.run operations).suspended = scopes.suspended := by
  induction enclosed generalizing scopes with
  | nil => rfl
  | single inside _ ih => exact (ih _).trans (suspended_perform inside)
  | @call body rest _ _ inside ih =>
      have called : (scopes.enter.run body).suspended = scopes.locals :: scopes.suspended := inside _
      rw [run_append]
      refine (ih _).trans ?_
      change (scopes.enter.run body).leave.suspended = _
      rw [leave, called]

/-- A call that is left gives the scopes of its caller back; it shares nothing but the global one. -/
theorem leave_run (enclosed : Enclosed body) (scopes : Scopes) :
    (scopes.enter.run body).leave =
      { scopes with globals := (scopes.enter.run body).globals } := by
  have called : (scopes.enter.run body).suspended = scopes.locals :: scopes.suspended :=
    suspended_run enclosed scopes.enter
  rw [leave, called]

theorem run_call (enclosed : Enclosed body) (scopes : Scopes) (rest : List ScopeOperation) :
    scopes.run (.enter :: body ++ .leave :: rest) =
      ({ scopes with globals := (scopes.enter.run body).globals } : Scopes).run rest := by
  rw [run_append, ← leave_run enclosed]
  rfl

theorem shape_close {scope : Scope} {inside : Scopes} (opened : inside.shape = (scopes.push scope).shape) :
    inside.close.shape = scopes.shape := by
  obtain ⟨length, suspended⟩ := List.cons.inj opened
  rw [shape, shape, close, List.length_tail, length, suspended]
  rfl

theorem shape_run (balanced : Balanced operations) (scopes : Scopes) :
    (scopes.run operations).shape = scopes.shape := by
  induction balanced generalizing scopes with
  | nil => rfl
  | single access _ ih => exact (ih _).trans (shape_perform access)
  | @block scope body rest _ _ inside ih =>
      rw [run_append]
      refine (ih _).trans ?_
      rw [perform_pop]
      exact shape_close (inside _)
  | call inside _ ih => rw [run_call inside, ih]; rfl

/-! ## What persists -/

section

variable {number : Nat} {rest : List ScopeOperation}

/-- A scope is there all the time if it is there until a call or a block ends, and then all the time. -/
theorem persists_joined {last : ScopeOperation} (first : List ScopeOperation)
    (inside : scopes.Persists number first)
    (further : ((scopes.run first).perform last).Persists number rest) :
    scopes.Persists number (first ++ last :: rest) :=
  persists_append inside (persists_cons.mpr ⟨inside first List.prefix_rfl, further⟩)

theorem length_numbered_enter (scopes : Scopes) :
    scopes.enter.numbered.length = scopes.numbered.length := by
  simp [numbered, stack, enter]

/-- In a call all scopes of the caller are below those of the function. -/
theorem base_enter (scopes : Scopes) : scopes.enter.base = scopes.numbered.length := by
  rw [← length_numbered_enter, length_numbered]
  rfl

/-- Inside of a call the scopes below it are there. -/
theorem persists_enclosed (enclosed : Enclosed operations) (below : number < scopes.base) :
    scopes.Persists number operations := by
  have present (scopes : Scopes) (below : number < scopes.base) : number < scopes.numbered.length :=
    Nat.lt_of_lt_of_le below scopes.base_le_length_numbered
  induction enclosed generalizing scopes with
  | nil => exact persists_nil.mpr (present scopes below)
  | single inside _ ih =>
      refine persists_cons.mpr ⟨present scopes below, ih ?_⟩
      rwa [base, suspended_perform inside]
  | @call body rest enclosed _ inside ih =>
      refine persists_joined (.enter :: body) (persists_cons.mpr ⟨present scopes below, ?_⟩) ?_
      · exact inside (scopes.base_enter ▸ present scopes below)
      · change ((scopes.enter.run body).leave).Persists number rest
        rw [leave_run enclosed]
        exact ih below

/-- Balanced operations remove none of the scopes that were there. -/
theorem persists_balanced (balanced : Balanced operations) (below : number < scopes.numbered.length) :
    scopes.Persists number operations := by
  induction balanced generalizing scopes with
  | nil => exact persists_nil.mpr below
  | single access _ ih =>
      refine persists_cons.mpr ⟨below, ih ?_⟩
      rwa [length_numbered_congr (shape_perform access)]
  | @block scope body rest balanced _ inside ih =>
      have opened : (scopes.push scope).numbered.length = scopes.numbered.length + 1 := by
        rw [length_numbered, length_numbered]
        rfl
      have closed := shape_close (shape_run balanced (scopes.push scope))
      refine persists_joined (.push scope :: body) (persists_cons.mpr ⟨below, ?_⟩) ?_
      · exact inside (opened ▸ Nat.lt_succ_of_lt below)
      · rw [perform_pop]
        refine ih ?_
        change _ < ((scopes.push scope).run body).close.numbered.length
        rwa [length_numbered_congr closed]
  | @call body rest enclosed _ ih =>
      refine persists_joined (.enter :: body) (persists_cons.mpr ⟨below, ?_⟩) ?_
      · exact persists_enclosed enclosed (scopes.base_enter ▸ below)
      · change ((scopes.enter.run body).leave).Persists number rest
        rw [leave_run enclosed]
        refine ih ?_
        rwa [length_numbered] at below ⊢

end

/-! ## The stacks of functions -/

/-- What names are looked up in by the running function and by each caller, innermost scope first. -/
def lookupStacks (scopes : Scopes) : List (List Scope) :=
  (scopes.locals :: scopes.suspended).map (· ++ [scopes.globals])

theorem globals_last {stack : List Scope} (member : stack ∈ scopes.lookupStacks) :
    stack.getLast? = some scopes.globals := by
  obtain ⟨locals, -, rfl⟩ := List.mem_map.mp member
  exact List.getLast?_concat

/-- Only the global scope cannot be removed. -/
theorem pop_cases (scopes : Scopes) :
    (scopes.depth = 1 ∧ scopes.pop = .error .globalRemoved ∧ scopes.perform .pop = scopes) ∨
      ∃ removed rest, 1 < scopes.depth ∧ scopes.pop = .ok (removed, rest) ∧
        scopes.visible = removed :: rest.visible := by
  obtain ⟨globals, locals, suspended⟩ := scopes
  cases locals with
  | nil => exact .inl ⟨rfl, rfl, rfl⟩
  | cons scope rest => exact .inr ⟨scope, _, by simp [depth], rfl, rfl⟩

theorem declare_iff (scopes : Scopes) (name : String) (binding : Binding) :
    (scopes.declare name binding).2 = true ↔ name ∉ scopes.current.names := by
  rw [← Scope.contains_iff_mem_names, declare]
  split <;> simp_all

theorem declare_known {name : String} (known : name ∈ scopes.current.names) (binding : Binding) :
    (scopes.declare name binding).1 = scopes := by
  rw [declare, if_pos (Scope.contains_iff_mem_names.mpr known)]

end Scopes

/-! ## What scripts do to scopes -/

namespace Exec

open ScopeOperation (Enclosed Balanced)

/-- The scopes changed by balanced operations. -/
def ByBalanced (first last : Machine) : Prop :=
  ∃ operations, Balanced operations ∧ last.scopes = first.scopes.run operations

theorem ByBalanced.of_eq {first last : Machine} (same : last.scopes = first.scopes) :
    ByBalanced first last :=
  ⟨[], .nil, same⟩

theorem ByBalanced.trans {first middle last : Machine} (start : ByBalanced first middle)
    (rest : ByBalanced middle last) : ByBalanced first last := by
  obtain ⟨begun, begins, reached⟩ := start
  obtain ⟨ended, ends, finished⟩ := rest
  exact ⟨begun ++ ended, begins.append ends, by rw [finished, reached, Scopes.run_append]⟩

theorem balancedDiscipline : Discipline ByBalanced ByBalanced where
  refl _ := .of_eq rfl
  trans start rest := start.trans rest
  weaken related := related
  growing_trans start rest := start.trans rest
  moved _ _ := .of_eq rfl
  observed _ _ _ := .of_eq rfl
  wrote _ _ := .of_eq rfl
  allocated _ _ _ := .of_eq rfl
  retagged _ _ _ := .of_eq rfl
  written _ _ _ _ := .of_eq rfl
  assigned _ name value := ⟨[.assign name value], .single trivial .nil, rfl⟩
  declared _ name binding := ⟨[.declare name binding], .single trivial .nil, rfl⟩
  registered _ _ _ _ := .of_eq rfl
  closed := by
    rintro machine scope final ⟨body, balanced, inside⟩
    refine ⟨.push scope :: body ++ [.pop], .block balanced .nil, ?_⟩
    rw [Scopes.run_append]
    change final.scopes.close = Scopes.perform (Scopes.run (machine.scopes.push scope) body) .pop
    rw [inside, Scopes.perform_pop]
  iterated _ _ := fun ⟨operations, balanced, same⟩ => ⟨operations, balanced, same⟩
  gave _ _ := .of_eq rfl
  returned := by
    rintro machine function arguments final ⟨body, balanced, inside⟩
    let parameters := parameterScope (function.parameters.zip arguments)
    have called : Enclosed (.push parameters :: body) := .single ⟨nofun, nofun⟩ balanced.enclosed
    refine ⟨.enter :: (.push parameters :: body) ++ [.leave], .call called .nil, ?_⟩
    rw [Scopes.run_append]
    change final.scopes.leave = ((machine.scopes.enter.push parameters).run body).leave
    rw [inside]
    rfl

end Exec

/-! ## The main result -/

namespace Scope

/-- Where no name stands twice, a name stands for its one binding. -/
theorem lookup?_eq_some_iff_mem {scope : Scope} (unique : scope.names.Nodup) {name : String}
    {binding : Binding} : scope.lookup? name = some binding ↔ (name, binding) ∈ scope.bindings := by
  refine ⟨mem_of_lookup, fun member => ?_⟩
  obtain ⟨before, after, split⟩ := List.append_of_mem member
  rw [lookup?, split, List.lookup_eq_some_iff]
  refine ⟨before, after, rfl, fun entry earlier => ?_⟩
  rw [names, split, List.map_append, List.nodup_append] at unique
  have other := unique.2.2 entry.1 (List.mem_map_of_mem earlier) name (by simp)
  simpa using Ne.symm other

end Scope

namespace Scopes

open ScopeOperation (Enclosed Balanced)

theorem mem_numbered_of_visible {scopes : Scopes} {scope : Scope} (seen : scope ∈ scopes.visible) :
    scope ∈ scopes.numbered := by
  rw [visible, List.mem_append, List.mem_singleton] at seen
  rw [numbered_eq, beneath, List.mem_append, List.mem_reverse]
  rcases seen with inner | rfl
  · exact .inr inner
  · exact .inl List.mem_cons_self

/-- Whatever operations were performed, with no name twice in a scope that was opened: no name stands twice
in any scope. Every stack ends with the one global scope, which is the only one that cannot be removed, and
trying to remove it changes nothing. A name is declared just if the innermost scope does not have it, and
stands for what the innermost scope says that has it. What further operations make of a scope, as long as
it is there, is told by the edits that reach it: new names stand behind the old ones, and these keep
everything but their values. Balanced operations between the opening and the removal of a scope leave all
scopes below in this way, and those between the beginning and the end of a call leave the scopes of the
caller as they are but for the global one. What an expression or a statement does to scopes is balanced. -/
theorem properly_nested (operations : List ScopeOperation)
    (opened : ∀ scope, .push scope ∈ operations → scope.names.Nodup) :
    let scopes := Scopes.initial.run operations
    scopes.Distinct ∧
    (∀ stack ∈ scopes.lookupStacks, stack.getLast? = some scopes.globals) ∧
    (scopes.depth = 1 ∧ scopes.pop = .error .globalRemoved ∧ scopes.perform .pop = scopes ∨
      ∃ removed rest, 1 < scopes.depth ∧ scopes.pop = .ok (removed, rest) ∧
        scopes.visible = removed :: rest.visible) ∧
    (∀ name binding, ((scopes.declare name binding).2 = true ↔ name ∉ scopes.current.names) ∧
      (name ∈ scopes.current.names → (scopes.declare name binding).1 = scopes)) ∧
    (∀ name binding, scopes.lookup? name = some binding ↔
      ∃ inner scope outer, scopes.visible = inner ++ scope :: outer ∧
        (∀ other ∈ inner, name ∉ other.names) ∧ (name, binding) ∈ scope.bindings) ∧
    (∀ number (before : Scope) later, scopes.numbered[number]? = some before → scopes.Persists number later →
      ∃ after, (scopes.run later).numbered[number]? = some after ∧
        before.Edited (scopes.edits number later) after) ∧
    (∀ scope body, Balanced body →
      let block := .push scope :: body ++ [.pop]
      (scopes.run block).shape = scopes.shape ∧
      ∀ number (before : Scope), scopes.numbered[number]? = some before →
        ∃ after, (scopes.run block).numbered[number]? = some after ∧
          before.Edited (scopes.edits number block) after) ∧
    (∀ body, Enclosed body →
      let call := .enter :: body ++ [.leave]
      ∃ globals, scopes.run call = { scopes with globals } ∧
        scopes.globals.Edited (scopes.edits 0 call) globals) ∧
    ∀ script verbosity fuel (machine : Machine),
      Exec.ByBalanced machine (Exec.finalOf (Exec.expression script verbosity fuel machine)) ∧
      Exec.ByBalanced machine (Exec.finalOf (Exec.statement script verbosity fuel machine)) := by
  intro scopes
  have distinct : scopes.Distinct := distinct_initial.run opened
  have edited (block : List ScopeOperation) (balanced : Balanced block) (number : Nat) (before : Scope)
      (found : scopes.numbered[number]? = some before) :
      ∃ after, (scopes.run block).numbered[number]? = some after ∧
        before.Edited (scopes.edits number block) after :=
    edited_of_persists (persists_balanced balanced (List.getElem?_eq_some_iff.mp found).1) found
  refine ⟨distinct, fun _ => globals_last, pop_cases scopes, fun name binding => ?_,
    fun name binding => ?_, fun number before later found persists => ?_, fun scope body balanced => ?_,
    fun body enclosed => ?_, fun script verbosity fuel machine => ?_⟩
  · exact ⟨declare_iff scopes name binding, fun known => declare_known known binding⟩
  · rw [lookup?_eq_some_iff]
    refine exists_congr fun inner => exists_congr fun scope => exists_congr fun outer =>
      and_congr_right fun split => and_congr_right fun _ => Scope.lookup?_eq_some_iff_mem ?_
    exact distinct scope (mem_numbered_of_visible (split ▸ List.mem_append_right _ List.mem_cons_self))
  · exact edited_of_persists persists found
  · have block : Balanced (.push scope :: body ++ [.pop]) := .block balanced .nil
    exact ⟨shape_run block scopes, edited _ block⟩
  · have call : Balanced (.enter :: body ++ [.leave]) := .call enclosed .nil
    have returned := run_call enclosed scopes []
    obtain ⟨after, there, changed⟩ := edited _ call 0 _ (numbered_globals scopes .empty).1
    rw [returned] at there
    obtain rfl := Option.some.inj ((numbered_globals _ .empty).1.symm.trans there)
    exact ⟨_, returned, changed⟩
  · have keeps := Exec.balancedDiscipline.evaluates script verbosity fuel
    exact ⟨keeps.expression machine, keeps.statement machine⟩

/-- What the function does that is called below. -/
def assigningBody : List ScopeOperation :=
  [.push ⟨[("y", ⟨.null, none, false⟩)]⟩, .assign "x" (.string "late"), .pop,
    .declare "z" ⟨.null, none, true⟩]

/-- Assigns to a name, hides it by another one, and calls a function that assigns to it as well. -/
def hidingBody : List ScopeOperation :=
  .assign "x" (.string "early") :: .declare "x" ⟨.null, none, false⟩ ::
    .assign "x" (.string "hiding") :: (.enter :: assigningBody ++ [.leave])

theorem hidingBody_balanced : Balanced hidingBody := by
  have called : Enclosed assigningBody := by
    refine .single ?_ (.single ?_ (.single ?_ (.single ?_ .nil))) <;> exact ⟨nofun, nofun⟩
  exact .single trivial (.single trivial (.single trivial (.call called .nil)))

/-- The global scope gets the value from inside of the call and the name that the call declared there, although
a scope of the caller has this name. -/
theorem properly_nested_around_hiding :
    let operations : List ScopeOperation :=
      [.declare "x" ⟨.string "first", some (.simple "string"), false⟩,
        .push ⟨[("y", ⟨.null, none, false⟩), ("z", ⟨.null, none, false⟩)]⟩]
    let block : List ScopeOperation := .push .empty :: hidingBody ++ [.pop]
    (∀ scope, .push scope ∈ operations → scope.names.Nodup) ∧ Balanced hidingBody ∧
    ∃ globals, ((Scopes.initial.run operations).run block).numbered[0]? = some globals ∧
      globals.names = ["x", "z"] ∧
      globals.lookup? "x" = some ⟨.string "late", some (.simple "string"), false⟩ ∧
      globals.lookup? "z" = some ⟨.null, none, true⟩ := by
  intro operations block
  have opened : ∀ scope, ScopeOperation.push scope ∈ operations → scope.names.Nodup := by
    simp [operations, Scope.names]
  have reached : (Scopes.initial.run operations).edits 0 block =
      [.assigned "x" (.string "early"), .assigned "x" (.string "late")] ++
        .declared "z" ⟨.null, none, true⟩ :: [] :=
    rfl
  have first : (Scopes.initial.run operations).globals.lookup? "x" =
      some ⟨.string "first", some (.simple "string"), false⟩ :=
    rfl
  obtain ⟨-, -, -, -, -, -, blocks, -⟩ := properly_nested operations opened
  obtain ⟨-, edited⟩ := blocks .empty hidingBody hidingBody_balanced
  obtain ⟨globals, there, changed⟩ := edited 0 (Scopes.initial.run operations).globals rfl
  refine ⟨opened, hidingBody_balanced, globals, there, ?_, ?_, ?_⟩
  · rw [changed.names, reached]
    rfl
  · rw [changed.kept first, reached]
    rfl
  · exact changed.added reached

end Scopes

end Onepass
