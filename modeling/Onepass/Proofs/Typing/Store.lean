import Onepass.Proofs.Typing.Heap

/-! # Typed stores

The store of a machine is its scopes and its heap. It is typed if every binding with a declared type
holds a value that conforms to it and the heap is typed. Declarations, assignments to variables, new
scopes, new arrays and retagging keep a store typed as long as what they store was checked. A write
to an element is different: it keeps the store typed exactly if the element conforms to every type
that some variable or array demands of it, however far away that is.
-/

set_option autoImplicit false

namespace Onepass

/-! ## The bindings of all scopes -/

/-- All scopes, those of the callers included. -/
def Scopes.all (scopes : Scopes) : List Scope :=
  scopes.globals :: scopes.locals ++ scopes.suspended.flatten

/-- Some scope has the binding. -/
def Scopes.Has (scopes : Scopes) (binding : Binding) : Prop :=
  ∃ scope ∈ scopes.all, ∃ name, (name, binding) ∈ scope.bindings

namespace Scope

theorem mem_of_lookup {scope : Scope} {name : String} {binding : Binding}
    (found : scope.lookup? name = some binding) : (name, binding) ∈ scope.bindings := by
  obtain ⟨before, after, same, -⟩ := List.lookup_eq_some_iff.mp found
  rw [same]
  simp

/-- The only entry that an assignment changes is the one that the name stands for. -/
theorem mem_assign {scope : Scope} {name : String} {value : Value} {entry : String × Binding}
    (member : entry ∈ (scope.assign name value).bindings) :
    entry ∈ scope.bindings ∨
      ∃ found, scope.lookup? name = some found ∧ entry = (name, { found with value }) := by
  obtain ⟨bindings⟩ := scope
  unfold assign lookup? at *
  induction bindings with
  | nil => cases member
  | cons first rest ih =>
      obtain ⟨key, found⟩ := first
      simp only [assign.replaced] at member
      by_cases same : key = name
      · subst same
        simp only [beq_self_eq_true, ↓reduceIte, List.mem_cons] at member
        rcases member with rfl | later
        · exact .inr ⟨found, by simp, rfl⟩
        · exact .inl (List.mem_cons_of_mem _ later)
      · simp only [beq_iff_eq, same, ↓reduceIte, List.mem_cons] at member
        rcases member with rfl | later
        · exact .inl List.mem_cons_self
        · rcases ih later with old | ⟨changed, looked, rfl⟩
          · exact .inl (List.mem_cons_of_mem _ old)
          · refine .inr ⟨changed, ?_, rfl⟩
            simpa [List.lookup_cons, beq_eq_false_iff_ne.mpr (Ne.symm same)] using looked

end Scope

namespace Scopes

variable {scopes : Scopes} {binding : Binding}

@[simp] theorem mem_all {scope : Scope} :
    scope ∈ scopes.all ↔
      scope = scopes.globals ∨ scope ∈ scopes.locals ∨ ∃ caller ∈ scopes.suspended, scope ∈ caller := by
  simp [all]

theorem has_of_lookup {name : String} (found : scopes.lookup? name = some binding) :
    scopes.Has binding := by
  obtain ⟨scope, seen, inside⟩ := List.exists_of_findSome?_eq_some found
  refine ⟨scope, ?_, name, Scope.mem_of_lookup inside⟩
  simp only [visible, List.mem_append, List.mem_singleton] at seen
  rcases seen with inner | rfl
  · exact mem_all.mpr (.inr (.inl inner))
  · exact mem_all.mpr (.inl rfl)

theorem has_push {scope : Scope} (has : (scopes.push scope).Has binding) :
    (∃ name, (name, binding) ∈ scope.bindings) ∨ scopes.Has binding := by
  obtain ⟨holder, among, entry⟩ := has
  simp only [mem_all, push, List.mem_cons] at among
  rcases among with global | (rfl | inner) | caller
  · exact .inr ⟨holder, mem_all.mpr (.inl global), entry⟩
  · exact .inl entry
  · exact .inr ⟨holder, mem_all.mpr (.inr (.inl inner)), entry⟩
  · exact .inr ⟨holder, mem_all.mpr (.inr (.inr caller)), entry⟩

theorem has_close (has : scopes.close.Has binding) : scopes.Has binding := by
  obtain ⟨holder, among, entry⟩ := has
  refine ⟨holder, mem_all.mpr ?_, entry⟩
  exact (mem_all.mp among).imp_right fun rest => rest.imp_left List.mem_of_mem_tail

theorem has_enter (has : scopes.enter.Has binding) : scopes.Has binding := by
  simpa [Has, enter] using has

theorem has_leave (has : scopes.leave.Has binding) : scopes.Has binding := by
  obtain ⟨globals, locals, suspended⟩ := scopes
  cases suspended with
  | nil => exact has
  | cons caller rest =>
      obtain ⟨holder, among, entry⟩ := has
      refine ⟨holder, mem_all.mpr ?_, entry⟩
      rcases mem_all.mp among with global | inner | ⟨other, older, inside⟩
      · exact .inl global
      · exact .inr (.inr ⟨caller, List.mem_cons_self, inner⟩)
      · exact .inr (.inr ⟨other, List.mem_cons_of_mem _ older, inside⟩)

theorem has_add {name : String} {added : Binding} (has : (scopes.add name added).Has binding) :
    binding = added ∨ scopes.Has binding := by
  obtain ⟨holder, among, key, entry⟩ := has
  have extended : ∀ scope ∈ scopes.all, (key, binding) ∈ (scope.add name added).bindings →
      binding = added ∨ scopes.Has binding := by
    intro scope inside member
    simp only [Scope.add, List.mem_append, List.mem_singleton, Prod.mk.injEq] at member
    rcases member with old | ⟨-, rfl⟩
    · exact .inr ⟨scope, inside, key, old⟩
    · exact .inl rfl
  obtain ⟨globals, locals, suspended⟩ := scopes
  cases locals with
  | nil =>
      rcases mem_all.mp among with rfl | rest
      · exact extended globals (mem_all.mpr (.inl rfl)) entry
      · exact .inr ⟨holder, mem_all.mpr (.inr rest), key, entry⟩
  | cons scope outer =>
      simp only [mem_all, add, List.mem_cons] at among
      rcases among with global | (rfl | inner) | caller
      · exact .inr ⟨holder, mem_all.mpr (.inl global), key, entry⟩
      · exact extended scope (mem_all.mpr (.inr (.inl List.mem_cons_self))) entry
      · exact .inr ⟨holder, mem_all.mpr (.inr (.inl (List.mem_cons_of_mem _ inner))), key, entry⟩
      · exact .inr ⟨holder, mem_all.mpr (.inr (.inr caller)), key, entry⟩

theorem has_declare {name : String} {added : Binding}
    (has : (scopes.declare name added).1.Has binding) : binding = added ∨ scopes.Has binding := by
  unfold declare at has
  split at has
  · exact .inr has
  · exact has_add has

theorem has_assignIn {name : String} {value : Value} {inner changed : List Scope} {scope : Scope}
    {entry : String × Binding} (assigned : assignIn name value inner = some changed)
    (inside : scope ∈ changed) (member : entry ∈ scope.bindings) :
    (∃ old ∈ inner, entry ∈ old.bindings) ∨
      ∃ found, inner.findSome? (·.lookup? name) = some found ∧ entry = (name, { found with value }) := by
  induction inner generalizing changed with
  | nil => cases assigned
  | cons first rest ih =>
      unfold assignIn at assigned
      cases known : first.lookup? name with
      | some found =>
          rw [if_pos (by simp [Scope.contains, known])] at assigned
          cases assigned
          rcases List.mem_cons.mp inside with rfl | later
          · rcases Scope.mem_assign member with old | ⟨same, looked, rfl⟩
            · exact .inl ⟨first, List.mem_cons_self, old⟩
            · exact .inr ⟨same, by simp [looked], rfl⟩
          · exact .inl ⟨scope, List.mem_cons_of_mem _ later, member⟩
      | none =>
          rw [if_neg (by simp [Scope.contains, known])] at assigned
          obtain ⟨others, inRest, rfl⟩ := Option.map_eq_some_iff.mp assigned
          rcases List.mem_cons.mp inside with rfl | later
          · exact .inl ⟨scope, List.mem_cons_self, member⟩
          · rcases ih inRest later with ⟨old, among, kept⟩ | ⟨found, looked, rfl⟩
            · exact .inl ⟨old, List.mem_cons_of_mem _ among, kept⟩
            · exact .inr ⟨found, by simp [known, looked], rfl⟩

theorem findSome_of_assignIn {name : String} {value : Value} {inner : List Scope}
    (absent : assignIn name value inner = none) : inner.findSome? (·.lookup? name) = none := by
  induction inner with
  | nil => rfl
  | cons first rest ih =>
      unfold assignIn at absent
      split at absent
      · cases absent
      · case _ lacks =>
        have unknown : first.lookup? name = none := by simpa [Scope.contains] using lacks
        simp [unknown, ih (Option.map_eq_none_iff.mp absent)]

/-- An assignment changes the value of the binding that the name stands for, and of no other. -/
theorem has_assign {name : String} {value : Value}
    (has : (scopes.assign name value).1.Has binding) :
    scopes.Has binding ∨
      ∃ found, scopes.lookup? name = some found ∧ binding = { found with value } := by
  obtain ⟨holder, among, key, entry⟩ := has
  unfold assign at among
  split at among
  case _ changed assigned =>
    rcases mem_all.mp among with global | inner | caller
    · exact .inl ⟨holder, mem_all.mpr (.inl global), key, entry⟩
    · rcases has_assignIn assigned inner entry with ⟨old, inside, kept⟩ | ⟨found, looked, same⟩
      · exact .inl ⟨old, mem_all.mpr (.inr (.inl inside)), key, kept⟩
      · refine .inr ⟨found, ?_, congrArg Prod.snd same⟩
        simp [lookup?, visible, looked]
    · exact .inl ⟨holder, mem_all.mpr (.inr (.inr caller)), key, entry⟩
  case _ absent =>
    split at among
    case isFalse => exact .inl ⟨holder, among, key, entry⟩
    case isTrue =>
      rcases mem_all.mp among with rfl | rest
      · rcases Scope.mem_assign entry with old | ⟨found, looked, same⟩
        · exact .inl ⟨scopes.globals, mem_all.mpr (.inl rfl), key, old⟩
        · refine .inr ⟨found, ?_, congrArg Prod.snd same⟩
          simp [lookup?, visible, findSome_of_assignIn absent, looked]
      · exact .inl ⟨holder, mem_all.mpr (.inr rest), key, entry⟩

end Scopes

/-! ## Typed machines -/

/-- Every binding with a declared type holds a value that conforms to it, and every array holds
elements that conform to the type it carries. -/
structure Machine.Typed (machine : Machine) : Prop where
  bindings : ∀ binding, machine.scopes.Has binding → ∀ type, binding.type = some type →
    machine.heap.conforms binding.value type = true
  heap : machine.heap.Typed

/-- Nothing in the store refers to an array that does not exist. -/
structure Machine.Grounded (machine : Machine) : Prop where
  bindings : ∀ binding, machine.scopes.Has binding → binding.value.Within machine.heap
  heap : machine.heap.Closed

/-- The binding refers to no array outside the heap, and if typing matters its value conforms to its
type. -/
structure Heap.Fits (typing : Prop) (heap : Heap) (binding : Binding) : Prop where
  within : binding.value.Within heap
  conforming : typing → ∀ type, binding.type = some type → heap.conforms binding.value type = true

/-- Nothing in the store refers to an array that does not exist, nor does the value that was returned
last, and if typing matters the machine is typed. -/
structure Machine.Sound (typing : Prop) (machine : Machine) : Prop where
  fitting : ∀ binding, machine.scopes.Has binding → machine.heap.Fits typing binding
  typed : typing → machine.heap.Typed
  closed : machine.heap.Closed
  returned : machine.returned.Within machine.heap

/-- No array is lost, and none gets shorter. -/
structure Heap.Grown (first last : Heap) : Prop where
  size : first.size ≤ last.size
  items : ∀ address, (first.items address).size ≤ (last.items address).size

theorem Heap.Grown.refl (heap : Heap) : heap.Grown heap :=
  ⟨Nat.le_refl _, fun _ => Nat.le_refl _⟩

theorem Heap.Grown.trans {first middle last : Heap} (start : first.Grown middle)
    (rest : middle.Grown last) : first.Grown last :=
  ⟨Nat.le_trans start.size rest.size,
    fun address => Nat.le_trans (start.items address) (rest.items address)⟩

theorem Value.Within.grown {value : Value} {first last : Heap} (within : value.Within first)
    (grown : first.Grown last) : value.Within last :=
  within.mono grown.size

theorem Heap.grown_allocate (heap : Heap) (items : Array Value) (type : Option DeclaredType) :
    heap.Grown (heap.allocate items type).1 := by
  refine ⟨by simp, fun address => ?_⟩
  rw [items_allocate]
  split
  case _ fresh => simp [items_of_size_le (Nat.le_of_eq fresh.symm)]
  case _ => exact Nat.le_refl _

theorem Heap.grown_retag (heap : Heap) (value : Value) (type : DeclaredType) :
    heap.Grown (heap.retag value type) :=
  ⟨by simp, fun address => by simp⟩

theorem Heap.grown_write (heap : Heap) (address : Address) (place : Nat) (value : Value) :
    heap.Grown (heap.write address place value) := by
  refine ⟨by simp, fun other => ?_⟩
  rw [items_write]
  split <;> simp

namespace Machine.Sound

variable {typing : Prop} {machine final : Machine}

theorem toTyped (sound : machine.Sound True) : machine.Typed :=
  ⟨fun binding has => (sound.fitting binding has).conforming trivial, sound.typed trivial⟩

theorem grounded (sound : machine.Sound typing) : machine.Grounded :=
  ⟨fun binding has => (sound.fitting binding has).within, sound.closed⟩

theorem initial : Machine.initial.Sound typing := by
  refine ⟨fun binding has => ?_, fun _ => Heap.typed_empty, Heap.closed_empty,
    Value.within_of_tag (by simp [Machine.initial, Value.tag])⟩
  simp [Scopes.Has, Machine.initial, Scopes.initial, Scope.empty] at has

/-- New bindings and a new result have to fit the heap, which stays as it is. -/
theorem rescope (sound : machine.Sound typing) (heap : final.heap = machine.heap)
    (returned : final.returned.Within machine.heap)
    (bound : ∀ binding, final.scopes.Has binding →
      machine.scopes.Has binding ∨ machine.heap.Fits typing binding) : final.Sound typing := by
  refine ⟨fun binding has => ?_, heap ▸ sound.typed, heap ▸ sound.closed, heap ▸ returned⟩
  rw [heap]
  exact (bound binding has).elim (sound.fitting binding) id

theorem of_eq (sound : machine.Sound typing) (scopes : final.scopes = machine.scopes)
    (heap : final.heap = machine.heap) (returned : final.returned = machine.returned) :
    final.Sound typing :=
  sound.rescope heap (returned ▸ sound.returned) fun _ has => .inl (scopes ▸ has)

theorem allocate (sound : machine.Sound typing) {items : Array Value} {type : Option DeclaredType}
    (within : ∀ element ∈ items, element.Within machine.heap)
    (conforming : typing → ∀ carried, type = some carried →
      ∀ element ∈ items, machine.heap.conforms element carried = true) :
    { machine with heap := (machine.heap.allocate items type).1 }.Sound typing := by
  refine ⟨fun binding has => ?_, fun matters =>
    Heap.typed_allocate (sound.typed matters) sound.closed within (conforming matters),
    Heap.closed_allocate sound.closed within, sound.returned.grown (Heap.grown_allocate _ _ _)⟩
  have fits := sound.fitting binding has
  refine ⟨fits.within.grown (Heap.grown_allocate _ _ _), fun matters declared typed => ?_⟩
  have before := fits.conforming matters declared typed
  unfold Heap.conforms at before ⊢
  rwa [Heap.conformsTo_allocate sound.closed items type fits.within]

theorem retag (sound : machine.Sound typing) {value : Value} {type : DeclaredType}
    (conforming : machine.heap.conforms value type = true) :
    { machine with heap := machine.heap.retag value type }.Sound typing := by
  refine ⟨fun binding has => ?_, fun matters => Heap.typed_retag (sound.typed matters) conforming,
    Heap.closed_retag sound.closed value type, sound.returned.grown (Heap.grown_retag _ _ _)⟩
  have fits := sound.fitting binding has
  refine ⟨fits.within.grown (Heap.grown_retag _ _ _), fun matters declared typed => ?_⟩
  rw [Heap.conforms_congr (Heap.items_retag value type)]
  exact fits.conforming matters declared typed

end Machine.Sound

/-! ## Writes to elements -/

theorem DeclaredType.arrayOf_inj {left right : DeclaredType} (same : left.arrayOf = right.arrayOf) :
    left = right := by
  obtain ⟨base, dimensions⟩ := left
  obtain ⟨other, others⟩ := right
  simpa [arrayOf] using same

/-- A variable or an array, possibly through arrays in between, asks the elements of the array at an
address to conform to a type. -/
inductive Machine.Demands (machine : Machine) : Address → DeclaredType → Prop where
  | carried {address : Address} {type : DeclaredType} :
      machine.heap.elementType? address = some type → Demands machine address type
  | bound {binding : Binding} {address : Address} {type : DeclaredType} :
      machine.scopes.Has binding → binding.value = .array address →
        binding.type = some type.arrayOf → Demands machine address type
  | nested {outer address : Address} {type : DeclaredType} :
      Demands machine outer type.arrayOf → .array address ∈ machine.heap.items outer →
        Demands machine address type

/-- The machine after a write to an element. -/
def Machine.withElement (machine : Machine) (address : Address) (place : Nat) (value : Value) : Machine :=
  { machine with heap := machine.heap.write address place value }

/-- A value conforms to whatever is demanded of the elements of an array. -/
def Machine.Admits (machine : Machine) (address : Address) (value : Value) : Prop :=
  ∀ type, machine.Demands address type → machine.heap.conforms value type = true

namespace Machine

variable {machine : Machine} {address : Address} {place : Nat} {value : Value}

/-- In a typed machine every element meets what is demanded of it. -/
theorem Typed.admits (typed : machine.Typed)
    (element : value ∈ machine.heap.items address) : machine.Admits address value := by
  intro type demanded
  induction demanded generalizing value with
  | carried declared => exact typed.heap _ _ declared value element
  | bound has holds declared =>
      have whole := typed.bindings _ has _ declared
      rw [holds] at whole
      exact (Heap.conforms_arrayOf _ _).mp whole value element
  | nested _ inside ih =>
      exact (Heap.conforms_arrayOf _ _).mp (ih inside) value element

/-- After a write of an element that meets all demands, a value conforms as before, provided that
what its type says about arrays is among the demands. -/
theorem conforms_withElement (admitted : (machine.withElement address place value).Admits address value)
    {base : String} {dimensions : Nat} {other : Value}
    (before : machine.heap.conforms other ⟨base, dimensions⟩ = true)
    (demanded : ∀ inner type, other = .array inner → DeclaredType.mk base dimensions = type.arrayOf →
      (machine.withElement address place value).Demands inner type) :
    (machine.withElement address place value).heap.conforms other ⟨base, dimensions⟩ = true := by
  induction dimensions generalizing other with
  | zero => exact before
  | succ dimensions ih =>
      obtain ⟨inner, rfl⟩ := Heap.array_of_conformsTo before
      have held := demanded inner ⟨base, dimensions⟩ rfl rfl
      have elements := (Heap.conformsTo_array base dimensions inner).mp before
      refine (Heap.conformsTo_array base dimensions inner).mpr fun element member => ?_
      have kept : element ∈ machine.heap.items inner →
          (machine.withElement address place value).heap.conforms element ⟨base, dimensions⟩ = true := by
        intro old
        refine ih (elements element old) fun deeper type same peeled => ?_
        subst same
        rw [peeled] at held
        exact .nested held member
      have found := member
      rw [withElement, Heap.items_write] at found
      split at found
      case _ same =>
        rcases Array.mem_or_eq_of_mem_setIfInBounds found with old | rfl
        · exact kept old
        · exact admitted _ (same ▸ held)
      case _ => exact kept found

theorem typed_withElement (typed : machine.Typed)
    (admitted : (machine.withElement address place value).Admits address value) :
    (machine.withElement address place value).Typed := by
  refine ⟨fun binding has type declared => ?_, fun other type declared element member => ?_⟩
  · refine conforms_withElement admitted (typed.bindings binding has type declared)
      fun inner peeled same array => ?_
    exact .bound has same (declared.trans (congrArg some array))
  · have whole : (machine.withElement address place value).heap.conforms (.array other)
        type.arrayOf = true := by
      refine conforms_withElement admitted ?_ ?_
      · exact (Heap.conforms_arrayOf type other).mpr
          (typed.heap other type ((Heap.elementType_write place other).symm.trans declared))
      · rintro inner peeled same array
        cases same
        obtain rfl := DeclaredType.arrayOf_inj array
        exact .carried declared
    exact (Heap.conforms_arrayOf type other).mp whole element member

/-- A write to an element that exists keeps a machine typed exactly if the element meets all that is
demanded of it. -/
theorem typed_withElement_iff (typed : machine.Typed)
    (inside : place < (machine.heap.items address).size) :
    (machine.withElement address place value).Typed ↔
      (machine.withElement address place value).Admits address value := by
  refine ⟨fun kept => kept.admits ?_, typed_withElement typed⟩
  rw [withElement, Heap.items_write, if_pos rfl]
  exact Array.mem_iff_getElem.mpr ⟨place, by simpa using inside, by simp⟩

theorem Sound.withElement {typing : Prop} (sound : machine.Sound typing)
    (within : value.Within machine.heap)
    (typed : typing → (machine.withElement address place value).Typed) :
    (machine.withElement address place value).Sound typing where
  fitting binding has :=
    ⟨(sound.fitting binding has).within.grown (Heap.grown_write _ _ _ _),
      fun matters => (typed matters).bindings binding has⟩
  typed matters := (typed matters).heap
  closed := Heap.closed_write sound.closed place within
  returned := sound.returned.grown (Heap.grown_write _ _ _ _)

end Machine

end Onepass
