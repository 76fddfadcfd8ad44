import Onepass.Proofs.Control

/-! # Operations on scopes

All scopes of an execution, those of suspended callers included, form one stack. They are numbered from the
global scope, which is number zero, to the innermost scope of the running function; a number belongs to one
scope for as long as there are that many. An operation opens a scope at the end of the stack, removes
scopes there, or edits the one scope that a declaration or an assignment reaches. What becomes of a scope is
told by the edits that reach it.
-/

set_option autoImplicit false

namespace Onepass

/-- An operation on the scopes of an execution. A scope may be opened with names in it, as a call does with
its parameters. -/
inductive ScopeOperation where
  | push (scope : Scope)
  | pop
  | lookup (name : String)
  | declare (name : String) (binding : Binding)
  | assign (name : String) (value : Value)
  | enter
  | leave

/-- A change of one scope. -/
inductive ScopeEdit where
  | declared (name : String) (binding : Binding)
  | assigned (name : String) (value : Value)

/-! ## Edits of one scope -/

namespace ScopeEdit

/-- The name that the edit adds. -/
def addedName? : ScopeEdit → Option String
  | .declared name _ => some name
  | .assigned .. => none

/-- The value that the edit gives to a name which was there. -/
def valueOf? (name : String) : ScopeEdit → Option Value
  | .declared .. => none
  | .assigned other value => if other = name then some value else none

/-- The names that the edits add, in their order. -/
def addedNames (edits : List ScopeEdit) : List String :=
  edits.filterMap addedName?

/-- The value that the last of the edits gives to a name which was there. -/
def lastValue? (edits : List ScopeEdit) (name : String) : Option Value :=
  edits.reverse.findSome? (valueOf? name)

/-- The scope after the edit. -/
def apply (scope : Scope) : ScopeEdit → Scope
  | .declared name binding => scope.add name binding
  | .assigned name value => scope.assign name value

/-- Only new names are declared, and only known ones get a value. -/
def Fits (scope : Scope) : ScopeEdit → Prop
  | .declared name _ => scope.contains name = false
  | .assigned name _ => scope.contains name = true

theorem lastValue?_append (earlier later : List ScopeEdit) (name : String) :
    lastValue? (earlier ++ later) name = (lastValue? later name).or (lastValue? earlier name) := by
  simp [lastValue?, List.findSome?_append]

end ScopeEdit

namespace Scope

variable {scope before middle after : Scope} {name : String}

/-- The names of the scope in the order of their declaration. -/
def names (scope : Scope) : List String :=
  scope.bindings.map Prod.fst

theorem names_eq (scope : Scope) : scope.names = scope.signature.map Prod.fst := by
  simp [signature, names, Function.comp_def]

theorem contains_iff_mem_names {scope : Scope} : scope.contains name = true ↔ name ∈ scope.names := by
  rw [contains_iff, names_eq]

@[simp] theorem names_add (scope : Scope) (name : String) (binding : Binding) :
    (scope.add name binding).names = scope.names ++ [name] := by
  simp [add, names]

@[simp] theorem names_assign (scope : Scope) (name : String) (value : Value) :
    (scope.assign name value).names = scope.names := by
  rw [names_eq, names_eq, signature_assign]

theorem lookup?_add (scope : Scope) (name : String) (binding : Binding) (other : String) :
    (scope.add name binding).lookup? other =
      (scope.lookup? other).or (if other = name then some binding else none) := by
  unfold lookup? add
  rw [List.lookup_append]
  by_cases same : other = name
  · simp [same]
  · simp [same, List.lookup_cons, beq_eq_false_iff_ne.mpr same]

theorem lookup_assign_of_ne (scope : Scope) {name other : String} (value : Value)
    (different : other ≠ name) : (scope.assign name value).lookup? other = scope.lookup? other := by
  obtain ⟨bindings⟩ := scope
  unfold assign lookup?
  induction bindings with
  | nil => rfl
  | cons entry rest ih =>
      obtain ⟨key, binding⟩ := entry
      unfold assign.replaced
      by_cases here : key = name
      · subst here
        simp [List.lookup_cons, beq_eq_false_iff_ne.mpr different]
      · simp [List.lookup_cons, here, ih]

theorem lookup_assign_self (scope : Scope) (name : String) (value : Value) :
    (scope.assign name value).lookup? name =
      (scope.lookup? name).map fun binding => { binding with value } := by
  obtain ⟨bindings⟩ := scope
  unfold assign lookup?
  induction bindings with
  | nil => rfl
  | cons entry rest ih =>
      obtain ⟨key, binding⟩ := entry
      unfold assign.replaced
      by_cases here : key = name
      · simp [here]
      · simp [List.lookup_cons, here, ih, beq_eq_false_iff_ne.mpr (Ne.symm here)]

/-- A scope came about from another one by the edits: the new names stand behind the old ones in the order
of their declaration, every old name has its type and its flag and the value that it got last, and every
new one what its declaration fixed and the value that it got last since then. -/
structure Edited (before : Scope) (edits : List ScopeEdit) (after : Scope) : Prop where
  names : after.names = before.names ++ ScopeEdit.addedNames edits
  kept : ∀ {name binding}, before.lookup? name = some binding →
    after.lookup? name =
      some { binding with value := (ScopeEdit.lastValue? edits name).getD binding.value }
  added : ∀ {earlier name binding later}, edits = earlier ++ .declared name binding :: later →
    after.lookup? name =
      some { binding with value := (ScopeEdit.lastValue? later name).getD binding.value }

namespace Edited

theorem refl (scope : Scope) : scope.Edited [] scope where
  names := (List.append_nil _).symm
  kept found := found
  added same := by simp at same

theorem trans {first second : List ScopeEdit} (start : before.Edited first middle)
    (rest : middle.Edited second after) : before.Edited (first ++ second) after where
  names := by
    rw [rest.names, start.names, ScopeEdit.addedNames, ScopeEdit.addedNames, ScopeEdit.addedNames,
      List.filterMap_append, List.append_assoc]
  kept {name binding} found := by
    rw [rest.kept (start.kept found), ScopeEdit.lastValue?_append]
    cases ScopeEdit.lastValue? second name <;> rfl
  added {earlier name binding later} same := by
    rcases List.append_eq_append_iff.mp same with ⟨further, rfl, split⟩ | ⟨further, rfl, split⟩
    · exact rest.added split
    · cases further with
      | nil =>
          have begins : second = [] ++ .declared name binding :: later := split.symm
          exact rest.added begins
      | cons declaration further =>
          obtain ⟨rfl, rfl⟩ := List.cons.inj split
          rw [rest.kept (start.added rfl)]
          change _ = some { binding with
            value := (ScopeEdit.lastValue? (further ++ second) name).getD binding.value }
          rw [ScopeEdit.lastValue?_append]
          cases ScopeEdit.lastValue? second name <;> rfl

theorem single {edit : ScopeEdit} (fits : edit.Fits before) :
    before.Edited [edit] (edit.apply before) := by
  cases edit with
  | declared name binding =>
      have absent : before.lookup? name = none := by simpa [ScopeEdit.Fits, contains] using fits
      refine ⟨names_add .., fun found => ?_, fun {earlier _ _ _} same => ?_⟩
      · rw [ScopeEdit.apply, lookup?_add, found]
        rfl
      · cases earlier with
        | nil =>
            cases same
            simp [ScopeEdit.apply, lookup?_add, absent, ScopeEdit.lastValue?]
        | cons => simp at same
  | assigned name value =>
      refine ⟨?_, fun {other binding} found => ?_, fun {earlier _ _ _} same => ?_⟩
      · rw [ScopeEdit.apply, names_assign]
        exact (List.append_nil _).symm
      · by_cases here : other = name
        · subst here
          rw [ScopeEdit.apply, lookup_assign_self, found]
          simp [ScopeEdit.lastValue?, ScopeEdit.valueOf?]
        · rw [ScopeEdit.apply, lookup_assign_of_ne _ _ here, found]
          simp [ScopeEdit.lastValue?, ScopeEdit.valueOf?, Ne.symm here]
      · cases earlier <;> simp at same

end Edited

end Scope

/-! ## What an operation does -/

namespace Scopes

/-- The scopes after an operation. One that is refused changes nothing. -/
def perform (scopes : Scopes) : ScopeOperation → Scopes
  | .push scope => scopes.push scope
  | .pop =>
    match scopes.pop with
    | .ok (_, rest) => rest
    | .error _ => scopes
  | .lookup _ => scopes
  | .declare name binding => (scopes.declare name binding).1
  | .assign name value => (scopes.assign name value).1
  | .enter => scopes.enter
  | .leave => scopes.leave

/-- The scopes after some operations. -/
def run (scopes : Scopes) (operations : List ScopeOperation) : Scopes :=
  operations.foldl perform scopes

theorem run_append (scopes : Scopes) (first second : List ScopeOperation) :
    scopes.run (first ++ second) = (scopes.run first).run second :=
  List.foldl_append

/-- All scopes, innermost first: those of the running function, those of its callers, and the global
one. -/
def stack (scopes : Scopes) : List Scope :=
  scopes.locals ++ (scopes.suspended.flatten ++ [scopes.globals])

theorem length_stack (scopes : Scopes) :
    scopes.stack.length = scopes.locals.length + (scopes.suspended.flatten.length + 1) := by
  simp [stack]

/-- All scopes by their numbers, from the global one to the innermost one. -/
def numbered (scopes : Scopes) : List Scope :=
  scopes.stack.reverse

/-- How many scopes there are below those of the running function. -/
def base (scopes : Scopes) : Nat :=
  scopes.suspended.flatten.length + 1

/-- The scopes below those of the running function. -/
def beneath (scopes : Scopes) : List Scope :=
  scopes.globals :: scopes.suspended.flatten.reverse

/-- The number of the innermost scope. -/
def currentNumber (scopes : Scopes) : Nat :=
  match scopes.locals with
  | [] => 0
  | _ :: rest => scopes.base + rest.length

/-- How many of the scopes stand below the innermost one that has the name. -/
def belowHolder? (name : String) : List Scope → Option Nat
  | [] => none
  | scope :: rest => if scope.contains name then some rest.length else belowHolder? name rest

/-- The number of the innermost scope that has the name, among those in which names are looked up. -/
def holder? (scopes : Scopes) (name : String) : Option Nat :=
  match belowHolder? name scopes.locals with
  | some below => some (scopes.base + below)
  | none => if scopes.globals.contains name then some 0 else none

/-- The edit that an operation comes to, and the number of the scope that it reaches: a declaration reaches
the innermost scope if the name is new there, and an assignment the innermost scope that has the name. -/
def edit? (scopes : Scopes) : ScopeOperation → Option (Nat × ScopeEdit)
  | .declare name binding =>
    if scopes.current.contains name then none
    else some (scopes.currentNumber, .declared name binding)
  | .assign name value => (scopes.holder? name).map (·, .assigned name value)
  | _ => none

theorem numbered_eq (scopes : Scopes) : scopes.numbered = scopes.beneath ++ scopes.locals.reverse := by
  simp [numbered, stack, beneath]

theorem length_beneath (scopes : Scopes) : scopes.beneath.length = scopes.base := by
  simp [beneath, base]

theorem length_numbered (scopes : Scopes) :
    scopes.numbered.length = scopes.base + scopes.locals.length := by
  simp [numbered_eq, length_beneath]

/-- Where the innermost scope that has the name stands, and what an assignment makes of it. -/
theorem assignIn_cases (name : String) (value : Value) (locals : List Scope) :
    (belowHolder? name locals = none ∧ assignIn name value locals = none) ∨
      ∃ inner scope outer, locals = inner ++ scope :: outer ∧ scope.contains name = true ∧
        belowHolder? name locals = some outer.length ∧
        assignIn name value locals = some (inner ++ scope.assign name value :: outer) := by
  induction locals with
  | nil => exact .inl ⟨rfl, rfl⟩
  | cons first rest ih =>
      unfold belowHolder? assignIn
      by_cases here : first.contains name = true
      · exact .inr ⟨[], first, rest, rfl, here, by rw [if_pos here], by rw [if_pos here]; rfl⟩
      · rw [if_neg here, if_neg here]
        rcases ih with ⟨unheld, unassigned⟩ | ⟨inner, scope, outer, rfl, has, below, assigned⟩
        · exact .inl ⟨unheld, by rw [unassigned]; rfl⟩
        · exact .inr ⟨first :: inner, scope, outer, rfl, has, below, by rw [assigned]; rfl⟩

/-- A local scope has as many scopes below it as its number says. -/
theorem numbered_local (globals scope : Scope) (inner outer : List Scope)
    (suspended : List (List Scope)) :
    (Scopes.mk globals (inner ++ scope :: outer) suspended).numbered =
      (globals :: suspended.flatten.reverse ++ outer.reverse) ++ scope :: inner.reverse := by
  simp [numbered_eq, beneath]

/-- Replacing a local scope is seen at its number only. -/
theorem numbered_replaced (globals scope instead : Scope) (inner outer : List Scope)
    (suspended : List (List Scope)) :
    let before : Scopes := ⟨globals, inner ++ scope :: outer, suspended⟩
    before.numbered[before.base + outer.length]? = some scope ∧
      (Scopes.mk globals (inner ++ instead :: outer) suspended).numbered =
        before.numbered.set (before.base + outer.length) instead := by
  intro before
  have number : before.base + outer.length =
      (globals :: suspended.flatten.reverse ++ outer.reverse).length := by
    simp only [before, base, List.length_append, List.length_cons, List.length_reverse]
  rw [number, numbered_local, numbered_local]
  constructor
  · rw [List.getElem?_append_right (Nat.le_refl _), Nat.sub_self]
    rfl
  · rw [List.set_append_right _ _ (Nat.le_refl _), Nat.sub_self]
    rfl

/-- Replacing the global scope is seen at number zero only. -/
theorem numbered_globals (scopes : Scopes) (instead : Scope) :
    scopes.numbered[0]? = some scopes.globals ∧
      ({ scopes with globals := instead } : Scopes).numbered = scopes.numbered.set 0 instead := by
  simp [numbered_eq, beneath]

theorem numbered_add (scopes : Scopes) (name : String) (binding : Binding) :
    scopes.numbered[scopes.currentNumber]? = some scopes.current ∧
      (scopes.add name binding).numbered =
        scopes.numbered.set scopes.currentNumber (scopes.current.add name binding) := by
  obtain ⟨globals, locals, suspended⟩ := scopes
  cases locals with
  | nil => exact numbered_globals ⟨globals, [], suspended⟩ _
  | cons scope rest => exact numbered_replaced globals scope _ [] rest suspended

theorem numbered_assign (scopes : Scopes) (name : String) (value : Value) :
    (scopes.holder? name = none ∧ (scopes.assign name value).1 = scopes) ∨
      ∃ number scope, scopes.holder? name = some number ∧ scopes.numbered[number]? = some scope ∧
        scope.contains name = true ∧
        (scopes.assign name value).1.numbered = scopes.numbered.set number (scope.assign name value) := by
  obtain ⟨globals, locals, suspended⟩ := scopes
  rcases assignIn_cases name value locals with
    ⟨unheld, unassigned⟩ | ⟨inner, scope, outer, rfl, has, below, assigned⟩
  · by_cases known : globals.contains name = true
    · have replaced := numbered_globals ⟨globals, locals, suspended⟩ (globals.assign name value)
      refine .inr ⟨0, globals, by simp [holder?, unheld, known], replaced.1, known, ?_⟩
      simpa [assign, unassigned, known] using replaced.2
    · exact .inl ⟨by simp [holder?, unheld, known], by simp [assign, unassigned, known]⟩
  · have replaced := numbered_replaced globals scope (scope.assign name value) inner outer suspended
    refine .inr ⟨_, scope, by simp [holder?, below], replaced.1, has, ?_⟩
    simpa [assign, assigned] using replaced.2

/-- An operation edits the one scope that it reaches, or it opens a scope behind all others, or it removes
scopes from that end. -/
theorem perform_cases (scopes : Scopes) (operation : ScopeOperation) :
    (∃ number edit scope, scopes.edit? operation = some (number, edit) ∧
        scopes.numbered[number]? = some scope ∧ edit.Fits scope ∧
        (scopes.perform operation).numbered = scopes.numbered.set number (edit.apply scope)) ∨
      scopes.edit? operation = none ∧
        ((∃ scope, operation = .push scope ∧
            (scopes.perform operation).numbered = scopes.numbered ++ [scope]) ∨
          (scopes.perform operation).numbered <+: scopes.numbered) := by
  cases operation with
  | push scope =>
      refine .inr ⟨rfl, .inl ⟨scope, rfl, ?_⟩⟩
      simp [perform, push, numbered, stack]
  | pop =>
      refine .inr ⟨rfl, .inr ?_⟩
      obtain ⟨globals, locals, suspended⟩ := scopes
      cases locals with
      | nil => exact List.prefix_rfl
      | cons scope rest => exact ⟨[scope], by simp [perform, pop, numbered, stack]⟩
  | lookup name => exact .inr ⟨rfl, .inr List.prefix_rfl⟩
  | declare name binding =>
      by_cases taken : scopes.current.contains name = true
      · refine .inr ⟨by rw [edit?, if_pos taken], .inr ?_⟩
        exact ⟨[], by rw [perform, declare, if_pos taken, List.append_nil]⟩
      · obtain ⟨there, added⟩ := scopes.numbered_add name binding
        refine .inl ⟨_, .declared name binding, scopes.current, by rw [edit?, if_neg taken], there,
          Bool.eq_false_iff.mpr taken, ?_⟩
        rw [perform, declare, if_neg taken]
        exact added
  | assign name value =>
      rcases scopes.numbered_assign name value with
        ⟨unheld, same⟩ | ⟨number, scope, held, there, has, assigned⟩
      · refine .inr ⟨by rw [edit?, unheld]; rfl, .inr ?_⟩
        exact ⟨[], by rw [perform, same, List.append_nil]⟩
      · exact .inl ⟨number, .assigned name value, scope, by rw [edit?, held]; rfl, there, has, assigned⟩
  | enter =>
      refine .inr ⟨rfl, .inr ?_⟩
      simp [perform, enter, numbered, stack]
  | leave =>
      refine .inr ⟨rfl, .inr ?_⟩
      obtain ⟨globals, locals, suspended⟩ := scopes
      cases suspended with
      | nil => exact List.prefix_rfl
      | cons caller others => exact ⟨locals.reverse, by simp [perform, leave, numbered, stack]⟩

/-! ## What operations do one after the other -/

/-- The edit by which an operation reaches the scope with a number, if it does. -/
def reaching (scopes : Scopes) (number : Nat) (operation : ScopeOperation) : List ScopeEdit :=
  match scopes.edit? operation with
  | some (reached, edit) => if reached = number then [edit] else []
  | none => []

/-- The edits by which operations reach the scope with a number, in their order. -/
def edits (number : Nat) (scopes : Scopes) : List ScopeOperation → List ScopeEdit
  | [] => []
  | operation :: rest =>
    scopes.reaching number operation ++ edits number (scopes.perform operation) rest

/-- An operation that does not remove a scope edits it by what reaches it. -/
theorem edited_by_perform {number : Nat} {scopes : Scopes} {operation : ScopeOperation} {before : Scope}
    (found : scopes.numbered[number]? = some before)
    (remains : number < (scopes.perform operation).numbered.length) :
    ∃ after, (scopes.perform operation).numbered[number]? = some after ∧
      before.Edited (scopes.reaching number operation) after := by
  obtain ⟨inside, -⟩ := List.getElem?_eq_some_iff.mp found
  rcases perform_cases scopes operation with
    ⟨reached, edit, scope, reaches, there, fits, changed⟩ | ⟨idle, others⟩
  · by_cases here : reached = number
    · subst here
      obtain rfl : scope = before := Option.some.inj (there.symm.trans found)
      refine ⟨edit.apply scope, by rw [changed, List.getElem?_set_self inside], ?_⟩
      simpa [reaching, reaches] using Scope.Edited.single fits
    · refine ⟨before, by rw [changed, List.getElem?_set_ne here, found], ?_⟩
      simpa [reaching, reaches, here] using Scope.Edited.refl before
  · refine ⟨before, ?_, by simpa [reaching, idle] using Scope.Edited.refl before⟩
    rcases others with ⟨opened, -, changed⟩ | ⟨removed, whole⟩
    · rw [changed, List.getElem?_append_left inside, found]
    · rwa [← whole, List.getElem?_append_left remains] at found

/-- The scope with the number is there at every moment. -/
def Persists (number : Nat) (scopes : Scopes) (operations : List ScopeOperation) : Prop :=
  ∀ begun, begun <+: operations → number < (scopes.run begun).numbered.length

theorem persists_nil {number : Nat} {scopes : Scopes} :
    scopes.Persists number [] ↔ number < scopes.numbered.length := by
  simp [Persists, run]

theorem persists_cons {number : Nat} {scopes : Scopes} {operation : ScopeOperation}
    {rest : List ScopeOperation} :
    scopes.Persists number (operation :: rest) ↔
      number < scopes.numbered.length ∧ (scopes.perform operation).Persists number rest := by
  constructor
  · intro persists
    exact ⟨persists [] (List.nil_prefix), fun begun started =>
      persists (operation :: begun) (List.cons_prefix_cons.mpr ⟨rfl, started⟩)⟩
  · rintro ⟨present, persists⟩ begun started
    cases begun with
    | nil => exact present
    | cons first others =>
        obtain ⟨rfl, further⟩ := List.cons_prefix_cons.mp started
        exact persists others further

/-- As long as a scope is there, it comes about by the edits that reach it. -/
theorem edited_of_persists {number : Nat} {scopes : Scopes} {operations : List ScopeOperation}
    (persists : scopes.Persists number operations) {before : Scope}
    (found : scopes.numbered[number]? = some before) :
    ∃ after, (scopes.run operations).numbered[number]? = some after ∧
      before.Edited (scopes.edits number operations) after := by
  induction operations generalizing scopes before with
  | nil => exact ⟨before, found, .refl before⟩
  | cons operation rest ih =>
      obtain ⟨-, further⟩ := persists_cons.mp persists
      obtain ⟨middle, there, first⟩ := edited_by_perform found (further [] List.nil_prefix)
      obtain ⟨after, ends, others⟩ := ih further there
      exact ⟨after, ends, first.trans others⟩

theorem persists_append {number : Nat} {scopes : Scopes} {first second : List ScopeOperation}
    (start : scopes.Persists number first) (rest : (scopes.run first).Persists number second) :
    scopes.Persists number (first ++ second) := by
  induction first generalizing scopes with
  | nil => exact rest
  | cons operation others ih =>
      obtain ⟨present, further⟩ := persists_cons.mp start
      exact persists_cons.mpr ⟨present, ih further rest⟩

/-! ## Names of scopes -/

/-- In no scope does a name stand twice. -/
def Distinct (scopes : Scopes) : Prop :=
  ∀ scope ∈ scopes.numbered, scope.names.Nodup

theorem distinct_initial : Scopes.initial.Distinct := by
  intro scope member
  obtain rfl : scope = .empty := by simpa [numbered, stack, initial] using member
  exact List.nodup_nil

theorem nodup_apply {scope : Scope} {edit : ScopeEdit} (unique : scope.names.Nodup)
    (fits : edit.Fits scope) : (edit.apply scope).names.Nodup := by
  cases edit with
  | declared name binding =>
      have fresh : name ∉ scope.names := fun member => by
        rw [ScopeEdit.Fits, Scope.contains_iff_mem_names.mpr member] at fits
        cases fits
      rw [ScopeEdit.apply, Scope.names_add]
      refine List.nodup_append.mpr ⟨unique, by simp, ?_⟩
      rintro known member other same rfl
      exact fresh (List.mem_singleton.mp same ▸ member)
  | assigned name value => rwa [ScopeEdit.apply, Scope.names_assign]

/-- Names stay distinct as long as they are distinct in the scopes that are opened. -/
theorem Distinct.perform {scopes : Scopes} (distinct : scopes.Distinct) {operation : ScopeOperation}
    (opened : ∀ scope, operation = .push scope → scope.names.Nodup) :
    (scopes.perform operation).Distinct := by
  intro scope member
  rcases perform_cases scopes operation with
    ⟨reached, edit, found, -, there, fits, changed⟩ | ⟨-, ⟨added, pushed, changed⟩ | removed⟩
  · rw [changed] at member
    rcases List.mem_or_eq_of_mem_set member with old | rfl
    · exact distinct scope old
    · exact nodup_apply (distinct found (List.mem_of_getElem? there)) fits
  · rw [changed, List.mem_append, List.mem_singleton] at member
    rcases member with old | rfl
    · exact distinct scope old
    · exact opened scope pushed
  · exact distinct scope (removed.subset member)

theorem Distinct.run {scopes : Scopes} (distinct : scopes.Distinct) {operations : List ScopeOperation}
    (opened : ∀ scope, .push scope ∈ operations → scope.names.Nodup) :
    (scopes.run operations).Distinct := by
  induction operations generalizing scopes with
  | nil => exact distinct
  | cons operation rest ih =>
      refine ih (distinct.perform fun scope pushed => opened scope ?_)
        fun scope member => opened scope (List.mem_cons_of_mem _ member)
      rw [pushed]
      exact List.mem_cons_self

/-- A name stands for what the innermost scope says that has it. -/
theorem lookup?_eq_some_iff (scopes : Scopes) {name : String} {binding : Binding} :
    scopes.lookup? name = some binding ↔
      ∃ inner scope outer, scopes.visible = inner ++ scope :: outer ∧
        (∀ other ∈ inner, name ∉ other.names) ∧ scope.lookup? name = some binding := by
  rw [lookup?, List.findSome?_eq_some_iff]
  have absent (other : Scope) : other.lookup? name = none ↔ name ∉ other.names := by
    rw [← Scope.contains_iff_mem_names, Scope.contains, Option.not_isSome_iff_eq_none]
  simp only [absent]
  constructor
  · rintro ⟨inner, scope, outer, split, found, others⟩
    exact ⟨inner, scope, outer, split, others, found⟩
  · rintro ⟨inner, scope, outer, split, others, found⟩
    exact ⟨inner, scope, outer, split, found, others⟩

end Scopes

end Onepass
