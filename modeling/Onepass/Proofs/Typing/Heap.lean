import Onepass.Execution.Expression

/-! # Typed heaps

A heap is typed if the elements of every array conform to the element type that the array carries, and
closed if no element refers to an array that does not exist. New arrays and new element types keep a
heap typed; whether a value conforms depends on the elements of arrays only, never on the types that
the arrays carry.
-/

set_option autoImplicit false

namespace Onepass

/-- The value refers to no array outside the heap. -/
def Value.Within (value : Value) (heap : Heap) : Prop :=
  ∀ address, value = .array address → address < heap.size

theorem Value.Within.mono {value : Value} {heap larger : Heap} (within : value.Within heap)
    (grown : heap.size ≤ larger.size) : value.Within larger :=
  fun address same => Nat.lt_of_lt_of_le (within address same) grown

theorem Value.within_of_tag {value : Value} {heap : Heap} (plain : value.tag ≠ .array) :
    value.Within heap := by
  rintro address rfl
  exact absurd rfl plain

namespace Heap

variable {heap : Heap} {address : Address} {value : Value}

/-! ## The single operations -/

@[simp] theorem size_allocate (items : Array Value) (type : Option DeclaredType) :
    (heap.allocate items type).1.size = heap.size + 1 := by
  simp [allocate, size]

@[simp] theorem size_write (index : Nat) : (heap.write address index value).size = heap.size := by
  simp [write, size]

@[simp] theorem size_declareElements (type : DeclaredType) :
    (heap.declareElements address type).size = heap.size := by
  simp [declareElements, size]

theorem items_of_size_le (outside : heap.size ≤ address) : heap.items address = #[] := by
  simp [items, Array.getElem?_eq_none outside]

theorem items_allocate (items : Array Value) (type : Option DeclaredType) (other : Address) :
    (heap.allocate items type).1.items other =
      if other = heap.size then items else heap.items other := by
  simp only [allocate, Heap.items, size, Array.getElem?_push]
  by_cases fresh : other = heap.cells.size <;> simp [fresh]

theorem elementType_allocate (items : Array Value) (type : Option DeclaredType) (other : Address) :
    (heap.allocate items type).1.elementType? other =
      if other = heap.size then type else heap.elementType? other := by
  simp only [allocate, elementType?, size, Array.getElem?_push]
  by_cases fresh : other = heap.cells.size <;> simp [fresh]

theorem items_write (index : Nat) (other : Address) :
    (heap.write address index value).items other =
      if other = address then (heap.items other).setIfInBounds index value else heap.items other := by
  simp only [write, Heap.items, Array.getElem?_modify]
  by_cases same : address = other
  · subst same
    cases heap.cells[address]? <;> simp
  · simp [same, Ne.symm same]

@[simp] theorem elementType_write (index : Nat) (other : Address) :
    (heap.write address index value).elementType? other = heap.elementType? other := by
  simp only [write, elementType?, Array.getElem?_modify]
  by_cases same : address = other
  · subst same
    cases heap.cells[address]? <;> simp
  · simp [same]

@[simp] theorem items_declareElements (type : DeclaredType) (other : Address) :
    (heap.declareElements address type).items other = heap.items other := by
  simp only [declareElements, Heap.items, Array.getElem?_modify]
  by_cases same : address = other
  · subst same
    cases heap.cells[address]? <;> simp
  · simp [same]

theorem elementType?_declareElements (type : DeclaredType) (other : Address) :
    (heap.declareElements address type).elementType? other =
      if other = address ∧ address < heap.size then some type else heap.elementType? other := by
  simp only [declareElements, elementType?, Array.getElem?_modify]
  by_cases same : address = other
  · subst same
    by_cases inside : address < heap.cells.size
    · simp [size, inside]
    · simp [size, inside]
  · simp [same, Ne.symm same]

theorem elementType_declareElements {type found : DeclaredType} {other : Address}
    (carried : (heap.declareElements address type).elementType? other = some found) :
    (other = address ∧ found = type) ∨ heap.elementType? other = some found := by
  rw [elementType?_declareElements] at carried
  split at carried
  case _ declared => exact .inl ⟨declared.1, (Option.some.inj carried).symm⟩
  case _ => exact .inr carried

/-! ## Conformance -/

theorem conformsTo_congr {left right : Heap} (same : ∀ address, left.items address = right.items address)
    (base : String) (dimensions : Nat) (value : Value) :
    left.conformsTo base dimensions value = right.conformsTo base dimensions value := by
  induction dimensions generalizing value with
  | zero => rfl
  | succ dimensions ih =>
      cases value with
      | array address =>
          simp only [conformsTo, same]
          congr 1
          funext element
          exact ih element
      | _ => rfl

theorem conforms_congr {left right : Heap} (same : ∀ address, left.items address = right.items address)
    (value : Value) (type : DeclaredType) : left.conforms value type = right.conforms value type :=
  conformsTo_congr same type.base type.dimensions value

theorem conformsTo_array (base : String) (dimensions : Nat) (address : Address) :
    heap.conformsTo base (dimensions + 1) (.array address) = true ↔
      ∀ element ∈ heap.items address, heap.conformsTo base dimensions element = true := by
  simp only [conformsTo, Array.all_eq_true, Array.mem_iff_getElem]
  constructor
  · rintro all element ⟨place, inside, rfl⟩
    exact all place inside
  · intro all place inside
    exact all _ ⟨place, inside, rfl⟩

/-- Only arrays conform to a type with dimensions. -/
theorem array_of_conformsTo {base : String} {dimensions : Nat}
    (conforming : heap.conformsTo base (dimensions + 1) value = true) :
    ∃ address, value = .array address := by
  cases value with
  | array address => exact ⟨address, rfl⟩
  | _ => cases conforming

theorem conforms_arrayOf (type : DeclaredType) (address : Address) :
    heap.conforms (.array address) type.arrayOf = true ↔
      ∀ element ∈ heap.items address, heap.conforms element type = true :=
  conformsTo_array type.base type.dimensions address

/-! ## Typed and closed heaps -/

/-- The elements of every array conform to the type that the array carries. -/
def Typed (heap : Heap) : Prop :=
  ∀ address type, heap.elementType? address = some type →
    ∀ element ∈ heap.items address, heap.conforms element type = true

/-- No element refers to an array outside the heap. -/
def Closed (heap : Heap) : Prop :=
  ∀ address, ∀ element ∈ heap.items address, element.Within heap

theorem typed_empty : Heap.empty.Typed := by
  intro address type carried
  simp [Heap.empty, elementType?] at carried

theorem closed_empty : Heap.empty.Closed := by
  intro address element member
  simp [Heap.empty, items] at member

/-- A new array changes nothing about the values that were there before it. -/
theorem conformsTo_allocate (closed : heap.Closed) (items : Array Value) (type : Option DeclaredType)
    (within : value.Within heap) (base : String) (dimensions : Nat) :
    (heap.allocate items type).1.conformsTo base dimensions value =
      heap.conformsTo base dimensions value := by
  induction dimensions generalizing value with
  | zero => rfl
  | succ dimensions ih =>
      cases value with
      | array address =>
          have old : address ≠ heap.size := Nat.ne_of_lt (within address rfl)
          rw [Bool.eq_iff_iff, conformsTo_array, conformsTo_array, items_allocate, if_neg old]
          refine forall₂_congr fun element member => ?_
          rw [ih (closed address element member)]
      | _ => rfl

theorem closed_allocate (closed : heap.Closed) {items : Array Value} {type : Option DeclaredType}
    (within : ∀ element ∈ items, element.Within heap) : (heap.allocate items type).1.Closed := by
  intro address element member
  rw [items_allocate] at member
  have grown : heap.size ≤ (heap.allocate items type).1.size := by simp
  split at member
  · exact (within element member).mono grown
  · exact (closed address element member).mono grown

/-- A new array whose elements conform to the type that it carries keeps the heap typed. -/
theorem typed_allocate (typed : heap.Typed) (closed : heap.Closed) {items : Array Value}
    {type : Option DeclaredType} (within : ∀ element ∈ items, element.Within heap)
    (conforming : ∀ carried, type = some carried →
      ∀ element ∈ items, heap.conforms element carried = true) :
    (heap.allocate items type).1.Typed := by
  intro address carried declared element member
  rw [elementType_allocate] at declared
  rw [items_allocate] at member
  unfold conforms
  split at member
  case _ fresh =>
    rw [if_pos fresh] at declared
    rw [conformsTo_allocate closed items type (within element member)]
    exact conforming carried declared element member
  case _ old =>
    rw [if_neg old] at declared
    rw [conformsTo_allocate closed items type (closed address element member)]
    exact typed address carried declared element member

theorem closed_write (closed : heap.Closed) (index : Nat) (within : value.Within heap) :
    (heap.write address index value).Closed := by
  intro other element member
  rw [items_write] at member
  have grown : heap.size ≤ (heap.write address index value).size := by simp
  split at member
  · rcases Array.mem_or_eq_of_mem_setIfInBounds member with old | rfl
    · exact (closed other element old).mono grown
    · exact within.mono grown
  · exact (closed other element member).mono grown

/-! ## Retagging -/

@[simp] theorem items_retag (value : Value) (type : DeclaredType) (other : Address) :
    (heap.retag value type).items other = heap.items other := by
  obtain ⟨base, dimensions⟩ := type
  unfold retag
  induction dimensions generalizing heap value with
  | zero => rfl
  | succ dimensions ih =>
      cases value with
      | array address =>
          simp only [retagTo, ← Array.foldl_toList]
          refine List.foldlRecOn (motive := fun reached : Heap => reached.items other = heap.items other)
            _ _ (items_declareElements ..) fun reached same element _ => ?_
          exact (ih element).trans same
      | _ => rfl

@[simp] theorem size_retag (value : Value) (type : DeclaredType) :
    (heap.retag value type).size = heap.size := by
  obtain ⟨base, dimensions⟩ := type
  unfold retag
  induction dimensions generalizing heap value with
  | zero => rfl
  | succ dimensions ih =>
      cases value with
      | array address =>
          simp only [retagTo, ← Array.foldl_toList]
          refine List.foldlRecOn (motive := fun reached : Heap => reached.size = heap.size)
            _ _ (size_declareElements _) fun reached same element _ => ?_
          exact (ih element).trans same
      | _ => rfl

theorem closed_retag (closed : heap.Closed) (value : Value) (type : DeclaredType) :
    (heap.retag value type).Closed := by
  intro address element member
  rw [items_retag] at member
  exact (closed address element member).mono (Nat.le_of_eq (size_retag value type).symm)

theorem typed_declareElements (typed : heap.Typed) {type : DeclaredType}
    (conforming : ∀ element ∈ heap.items address, heap.conforms element type = true) :
    (heap.declareElements address type).Typed := by
  intro other found declared element member
  rw [conforms_congr (items_declareElements type)]
  rw [items_declareElements] at member
  rcases elementType_declareElements declared with ⟨rfl, rfl⟩ | before
  · exact conforming element member
  · exact typed other found before element member

/-- The element types of a type that the value conforms to keep the heap typed. -/
theorem typed_retag (typed : heap.Typed) {type : DeclaredType}
    (conforming : heap.conforms value type = true) : (heap.retag value type).Typed := by
  obtain ⟨base, dimensions⟩ := type
  induction dimensions generalizing heap value with
  | zero => exact typed
  | succ dimensions ih =>
      obtain ⟨address, rfl⟩ := array_of_conformsTo conforming
      have elements := (conformsTo_array base dimensions address).mp conforming
      simp only [retag, retagTo, ← Array.foldl_toList]
      -- The elements conform in every heap on the way, since none of them has other elements.
      have reached := List.foldlRecOn (motive := fun reached : Heap => reached.Typed ∧
          ∀ other, reached.items other = heap.items other) (heap.items address).toList
        (retagTo base dimensions)
        ⟨typed_declareElements typed elements, items_declareElements ⟨base, dimensions⟩⟩
        fun reached known element member => by
          refine ⟨ih known.1 ?_, fun other => (items_retag element ⟨base, dimensions⟩ other).trans
            (known.2 other)⟩
          rw [conforms_congr known.2]
          exact elements element (Array.mem_toList_iff.mp member)
      exact reached.1

/-! ## Descriptions -/

theorem conforms_describe (typed : heap.Typed) (value : Value) :
    heap.conforms value (heap.describe value) = true := by
  cases value with
  | array address =>
      cases declared : heap.elementType? address with
      | none => simp [describe, declared, conforms, conformsTo, DeclaredType.simple,
          Value.conformsToBase, Value.tag, Tag.name]
      | some type =>
          simp only [describe, declared]
          exact (conforms_arrayOf type address).mpr (typed address type declared)
  | _ => simp [describe, conforms, conformsTo, DeclaredType.simple, Value.conformsToBase, Value.tag,
      Tag.name]

/-! ## Results of operators -/

theorem numberResult_tag {result : Except Decimal.Fault Decimal}
    (computed : numberResult result = .ok value) : value.tag ≠ .array := by
  cases result <;> cases computed
  simp [Value.tag]

theorem exactResult_tag {result : Except Decimal.Refusal Decimal}
    (computed : exactResult result = .ok value) : value.tag ≠ .array := by
  rcases result with (_ | _) | _ <;> cases computed
  simp [Value.tag]

variable {left right : Value}

theorem comparison_tag {operator : BinaryOperator} {test : Ordering → Bool}
    (computed : comparison operator test left right = .ok value) : value.tag ≠ .array := by
  unfold comparison at computed
  split at computed <;> cases computed
  simp [Value.tag]

theorem concatenate_tag (computed : heap.concatenate left right = .ok value) :
    value.tag ≠ .array := by
  unfold concatenate at computed
  cases first : heap.textOf .plain left with
  | error fault => rw [first] at computed; cases computed
  | ok text =>
      cases second : heap.textOf .plain right with
      | error fault => rw [first, second] at computed; cases computed
      | ok more =>
          rw [first, second] at computed
          cases computed
          simp [Value.tag]

theorem map_tag {α : Type} {result : Except Fault α} {wrap : α → Value}
    (plain : ∀ found, (wrap found).tag ≠ .array) (computed : result.map wrap = .ok value) :
    value.tag ≠ .array := by
  cases result <;> cases computed
  exact plain _

/-- No operator makes an array. -/
theorem binary_tag {operator : BinaryOperator}
    (computed : heap.binary operator left right = .ok value) : value.tag ≠ .array := by
  unfold binary at computed
  split at computed
  · exact exactResult_tag computed
  · split at computed
    · exact concatenate_tag computed
    · cases computed
  · exact exactResult_tag computed
  · exact exactResult_tag computed
  · split at computed
    · cases computed
    · exact numberResult_tag computed
  · split at computed
    · cases computed
    · exact numberResult_tag computed
  · exact map_tag (by simp [Value.tag]) computed
  · exact map_tag (by simp [Value.tag]) computed
  · exact comparison_tag computed
  · exact comparison_tag computed
  · exact comparison_tag computed
  · exact comparison_tag computed
  · cases computed
    simp [Value.tag]
  · cases computed
    simp [Value.tag]
  · cases computed

theorem notConvertible_ne_ok {target : String} : heap.notConvertible left target ≠ .ok value := by
  unfold notConvertible
  cases heap.textOf .quoting left <;> exact nofun

theorem convertText_tag {text : String} (computed : heap.convertText left text = .ok value) :
    value.tag ≠ .array := by
  unfold convertText at computed
  split at computed
  · cases computed
    simp [Value.tag]
  · exact absurd computed notConvertible_ne_ok

theorem toNumber_tag (computed : heap.toNumber left = .ok value) : value.tag ≠ .array := by
  unfold toNumber at computed
  split at computed
  · cases computed
    simp [Value.tag]
  · exact convertText_tag computed
  · exact convertText_tag computed
  · exact absurd computed notConvertible_ne_ok

theorem toChar_tag (computed : heap.toChar left = .ok value) : value.tag ≠ .array := by
  unfold toChar at computed
  split at computed
  · cases computed
    simp [Value.tag]
  · split at computed
    · cases computed
      simp [Value.tag]
    · exact absurd computed notConvertible_ne_ok
  · exact absurd computed notConvertible_ne_ok

theorem toBoolean_tag (computed : heap.toBoolean left = .ok value) : value.tag ≠ .array := by
  unfold toBoolean at computed
  split at computed
  · cases computed
    simp [Value.tag]
  · split at computed
    · cases computed
      simp [Value.tag]
    · split at computed
      · cases computed
        simp [Value.tag]
      · exact absurd computed notConvertible_ne_ok
  · exact absurd computed notConvertible_ne_ok

/-- A conversion gives the value itself or one that is no array. -/
theorem convert_ok {target : String} (computed : heap.convert left target = .ok value) :
    value = left ∨ value.tag ≠ .array := by
  unfold convert at computed
  split at computed
  · exact .inr (map_tag (by simp [Value.tag]) computed)
  · exact .inr (toNumber_tag computed)
  · exact .inr (toChar_tag computed)
  · exact .inr (toBoolean_tag computed)
  · split at computed
    · cases computed
      exact .inl rfl
    · exact absurd computed notConvertible_ne_ok
  · cases computed

end Heap

/-- A type that is shared is the type of each element. -/
theorem Exec.sharedType_ok {described : List DeclaredType} {type : DeclaredType}
    (shared : sharedType described = .ok (some type)) : ∀ found ∈ described, found = type := by
  intro found member
  have kept := List.mem_eraseDups.mpr member
  unfold sharedType at shared
  split at shared
  · cases shared
  · case _ single same =>
    rw [same, List.mem_singleton] at kept
    simp only [Except.ok.injEq, Option.ite_none_left_eq_some, Option.some.injEq] at shared
    rw [kept, shared.2]
  · cases shared

end Onepass
