import Onepass.Proofs.Typing.Heap
import Onepass.Proofs.Value.TypeText

/-! # Retagging

Retagging goes down through an array as far as the declared type has dimensions and declares the element
type of every array that it meets. If the value is a tree and conforms to the type, it meets every array of
the value, each at one depth only, so that afterwards the value is described by the type itself and nothing
is left to declare.
-/

set_option autoImplicit false

namespace Onepass.Heap

variable {heap : Heap} {base : String} {dimensions : Nat} {value : Value} {address : Address}

/-! ## Arrays inside of a value -/

/-- What the places lead to, each of them from an array to one of its elements. -/
def inside? (heap : Heap) : Value → List Nat → Option Value
  | value, [] => some value
  | .array address, place :: path =>
    (heap.items address)[place]?.bind fun element => heap.inside? element path
  | _, _ :: _ => none

/-- Every array inside of the value is there, and at one place only. -/
structure TreeShaped (heap : Heap) (value : Value) : Prop where
  exists_array : ∀ {path address}, heap.inside? value path = some (.array address) →
    address < heap.size
  unique : ∀ {path other address}, heap.inside? value path = some (.array address) →
    heap.inside? value other = some (.array address) → path = other

theorem inside?_cons {place : Nat} {path : List Nat} {inner : Value} :
    heap.inside? (.array address) (place :: path) = some inner ↔
      ∃ element, (heap.items address)[place]? = some element ∧
        heap.inside? element path = some inner :=
  Option.bind_eq_some_iff

theorem inside?_element {element inner : Value} {path : List Nat}
    (member : element ∈ (heap.items address).toList)
    (leads : heap.inside? element path = some inner) :
    ∃ place, heap.inside? (.array address) (place :: path) = some inner := by
  obtain ⟨place, found⟩ := List.mem_iff_getElem?.mp member
  exact ⟨place, inside?_cons.mpr ⟨element, by simpa using found, leads⟩⟩

/-! ## Heaps with the same elements -/

/-- The arrays have the same elements; their element types may differ. -/
structure SameElements (left right : Heap) : Prop where
  size : right.size = left.size
  items : ∀ address, right.items address = left.items address

theorem SameElements.refl (heap : Heap) : heap.SameElements heap :=
  ⟨rfl, fun _ => rfl⟩

theorem SameElements.trans {first middle last : Heap} (start : first.SameElements middle)
    (rest : middle.SameElements last) : first.SameElements last :=
  ⟨rest.size.trans start.size, fun address => (rest.items address).trans (start.items address)⟩

theorem sameElements_declareElements (heap : Heap) (address : Address) (type : DeclaredType) :
    heap.SameElements (heap.declareElements address type) :=
  ⟨size_declareElements type, items_declareElements type⟩

theorem sameElements_retagTo (base : String) (dimensions : Nat) (heap : Heap) (value : Value) :
    heap.SameElements (retagTo base dimensions heap value) :=
  ⟨size_retag value ⟨base, dimensions⟩, items_retag value ⟨base, dimensions⟩⟩

theorem SameElements.inside?_eq {left right : Heap} (same : left.SameElements right) (value : Value)
    (path : List Nat) : right.inside? value path = left.inside? value path := by
  induction path generalizing value with
  | nil => rfl
  | cons place path ih =>
      cases value with
      | array address => simp only [inside?, same.items, ih]
      | _ => rfl

/-- Two heaps are the same if their arrays have the same elements and element types. -/
theorem SameElements.eq {left right : Heap} (same : left.SameElements right)
    (types : ∀ address, right.elementType? address = left.elementType? address) : right = left := by
  obtain ⟨cells⟩ := left
  obtain ⟨others⟩ := right
  congr 1
  refine Array.ext same.size fun place inside bound => ?_
  have items := same.items place
  have types := types place
  simp only [Heap.items, elementType?, Array.getElem?_eq_getElem inside,
    Array.getElem?_eq_getElem bound, Option.map_some, Option.getD_some, Option.bind_some] at items types
  exact congrArg₂ Cell.mk items types

/-! ## Conforming values -/

theorem conformsTo_zero_array (plain : base ≠ Tag.array.name) :
    heap.conformsTo base 0 (.array address) = false := by
  rw [conformsTo, Value.conformsToBase, Value.tag]
  split
  · rfl
  · exact decide_eq_false (Ne.symm plain)

/-- Inside of a conforming value there are no more arrays in each other than the type has dimensions,
unless the word of the type is the one for arrays. -/
theorem length_lt_of_conformsTo (plain : base ≠ Tag.array.name) {path : List Nat}
    (conforming : heap.conformsTo base dimensions value = true)
    (leads : heap.inside? value path = some (.array address)) : path.length < dimensions := by
  induction path generalizing value dimensions with
  | nil =>
      obtain rfl := Option.some.inj leads
      cases dimensions with
      | zero =>
          rw [conformsTo_zero_array plain] at conforming
          cases conforming
      | succ dimensions => exact Nat.zero_lt_succ _
  | cons place path ih =>
      cases value with
      | array holder =>
          obtain ⟨element, found, further⟩ := inside?_cons.mp leads
          cases dimensions with
          | zero =>
              rw [conformsTo_zero_array plain] at conforming
              cases conforming
          | succ dimensions =>
              have member := Array.mem_of_getElem? found
              exact Nat.succ_lt_succ
                (ih ((conformsTo_array base dimensions holder).mp conforming element member) further)
      | _ => cases leads

/-! ## What retagging declares -/

/-- Retagging goes through the elements of an array one after the other. -/
theorem retagTo_array (base : String) (dimensions : Nat) (heap : Heap) (address : Address) :
    retagTo base (dimensions + 1) heap (.array address) =
      (heap.items address).toList.foldl (retagTo base dimensions)
        (heap.declareElements address ⟨base, dimensions⟩) := by
  rw [retagTo, Array.foldl_toList]

/-- What every single element keeps, in heaps with the same elements, all of them keep. -/
theorem foldl_retagTo {motive : Heap → Prop} {elements : List Value} {start : Heap} (holds : motive start)
    (step : ∀ reached, start.SameElements reached → motive reached → ∀ element ∈ elements,
      motive (retagTo base dimensions reached element)) :
    motive (elements.foldl (retagTo base dimensions) start) :=
  have kept := List.foldlRecOn
    (motive := fun reached => start.SameElements reached ∧ motive reached) elements
    (retagTo base dimensions) ⟨.refl start, holds⟩ fun reached known element member =>
      ⟨known.1.trans (sameElements_retagTo base dimensions reached element),
        step reached known.1 known.2 element member⟩
  kept.2

/-- What one of the elements establishes and every single one keeps holds behind all of them. -/
theorem foldl_retagTo_of_mem {motive : Heap → Prop} {elements : List Value} {start : Heap}
    {element : Value} (member : element ∈ elements)
    (reach : ∀ reached, start.SameElements reached → motive (retagTo base dimensions reached element))
    (step : ∀ reached, start.SameElements reached → motive reached → ∀ element ∈ elements,
      motive (retagTo base dimensions reached element)) :
    motive (elements.foldl (retagTo base dimensions) start) := by
  obtain ⟨before, after, rfl⟩ := List.append_of_mem member
  rw [List.foldl_append, List.foldl_cons]
  have first : start.SameElements (before.foldl (retagTo base dimensions) start) :=
    foldl_retagTo (motive := start.SameElements) (.refl start) fun reached same _ element _ =>
      same.trans (sameElements_retagTo base dimensions reached element)
  have both := first.trans (sameElements_retagTo base dimensions _ element)
  exact foldl_retagTo (reach _ first) fun reached same kept other inside =>
    step reached (both.trans same) kept other
      (List.mem_append_right _ (List.mem_cons_of_mem _ inside))

/-- The array is inside of the value, above the last dimension. -/
def Meets (heap : Heap) (value : Value) (dimensions : Nat) (address : Address) : Prop :=
  ∃ path, heap.inside? value path = some (.array address) ∧ path.length < dimensions

/-- Above the last dimension the array is at no other depth. -/
def MeetsOnlyAt (heap : Heap) (value : Value) (dimensions depth : Nat) (address : Address) : Prop :=
  ∀ path, heap.inside? value path = some (.array address) → path.length < dimensions →
    path.length = depth

section

variable {holder : Address} {element : Value} {depth : Nat}

theorem SameElements.meets_iff {other : Heap} (same : heap.SameElements other) :
    other.Meets value dimensions address ↔ heap.Meets value dimensions address := by
  simp only [Meets, same.inside?_eq]

theorem SameElements.meetsOnlyAt_iff {other : Heap} (same : heap.SameElements other) :
    other.MeetsOnlyAt value dimensions depth address ↔
      heap.MeetsOnlyAt value dimensions depth address := by
  simp only [MeetsOnlyAt, same.inside?_eq]

theorem Meets.of_element (member : element ∈ (heap.items holder).toList)
    (meets : heap.Meets element dimensions address) :
    heap.Meets (.array holder) (dimensions + 1) address := by
  obtain ⟨path, leads, short⟩ := meets
  obtain ⟨place, further⟩ := inside?_element member leads
  exact ⟨place :: path, further, Nat.succ_lt_succ short⟩

theorem MeetsOnlyAt.inner
    (only : heap.MeetsOnlyAt (.array holder) (dimensions + 1) (depth + 1) address)
    (member : element ∈ (heap.items holder).toList) :
    heap.MeetsOnlyAt element dimensions depth address := by
  intro path leads short
  obtain ⟨place, further⟩ := inside?_element member leads
  exact Nat.succ_injective (only _ further (Nat.succ_lt_succ short))

/-- What is the array itself is not inside of its elements. -/
theorem MeetsOnlyAt.not_inside (only : heap.MeetsOnlyAt (.array holder) (dimensions + 1) 0 address)
    (member : element ∈ (heap.items holder).toList) : ¬ heap.Meets element dimensions address := by
  rintro ⟨path, leads, short⟩
  obtain ⟨place, further⟩ := inside?_element member leads
  cases only _ further (Nat.succ_lt_succ short)

end

/-- An array that is not met keeps its element type. -/
theorem elementType?_retagTo_of_unmet (unmet : ¬ heap.Meets value dimensions address) :
    (retagTo base dimensions heap value).elementType? address = heap.elementType? address := by
  induction dimensions generalizing heap value with
  | zero => rw [retagTo]; simp
  | succ dimensions ih =>
      cases value with
      | array holder =>
          have other : address ≠ holder := by
            rintro rfl
            exact unmet ⟨[], rfl, Nat.zero_lt_succ _⟩
          have declared : (heap.declareElements holder ⟨base, dimensions⟩).elementType? address =
              heap.elementType? address := by
            rw [elementType?_declareElements, if_neg fun both => other both.1]
          rw [retagTo_array]
          refine foldl_retagTo (motive := fun reached => reached.elementType? address = _) declared
            fun reached same kept element member => (ih fun meets => unmet ?_).trans kept
          exact ((sameElements_declareElements heap holder _).trans same).meets_iff.mp meets
            |>.of_element member
      | _ => rfl

/-- An array that is met at one depth only gets the element type for this depth. -/
theorem elementType?_retagTo_of_met {depth : Nat} (bound : address < heap.size)
    (only : heap.MeetsOnlyAt value dimensions depth address)
    (meets : heap.Meets value dimensions address) :
    (retagTo base dimensions heap value).elementType? address =
      some ⟨base, dimensions - (depth + 1)⟩ := by
  induction dimensions generalizing heap value depth with
  | zero =>
      obtain ⟨path, -, short⟩ := meets
      cases short
  | succ dimensions ih =>
      obtain ⟨path, leads, short⟩ := meets
      have length := only path leads short
      cases value with
      | array holder =>
          have declared := sameElements_declareElements heap holder ⟨base, dimensions⟩
          rw [retagTo_array]
          cases path with
          | nil =>
              obtain rfl := Value.array.inj (Option.some.inj leads)
              obtain rfl : 0 = depth := length
              refine foldl_retagTo (motive := fun reached => reached.elementType? holder = _) ?_
                fun reached same kept element member =>
                  (elementType?_retagTo_of_unmet fun meets => only.not_inside member ?_).trans kept
              · rw [elementType?_declareElements, if_pos ⟨rfl, bound⟩]
                rfl
              · exact (declared.trans same).meets_iff.mp meets
          | cons place path =>
              obtain ⟨element, found, further⟩ := inside?_cons.mp leads
              obtain rfl : path.length + 1 = depth := length
              have member : element ∈ (heap.items holder).toList :=
                Array.mem_toList_iff.mpr (Array.mem_of_getElem? found)
              rw [Nat.add_sub_add_right]
              -- Every element that holds the array at all declares the same for it.
              have settles {reached : Heap}
                  (same : (heap.declareElements holder ⟨base, dimensions⟩).SameElements reached)
                  {element : Value} (member : element ∈ (heap.items holder).toList)
                  (meets : heap.Meets element dimensions address) :
                  (retagTo base dimensions reached element).elementType? address =
                    some ⟨base, dimensions - (path.length + 1)⟩ :=
                have whole := declared.trans same
                ih (whole.size ▸ bound) (whole.meetsOnlyAt_iff.mpr (only.inner member))
                  (whole.meets_iff.mpr meets)
              refine foldl_retagTo_of_mem (motive := fun reached => reached.elementType? address = _) member
                (fun reached same => settles same member ⟨path, further, Nat.lt_of_succ_lt_succ short⟩)
                fun reached same kept element member => ?_
              by_cases meets : heap.Meets element dimensions address
              · exact settles same member meets
              · refine (elementType?_retagTo_of_unmet fun found => meets ?_).trans kept
                exact (declared.trans same).meets_iff.mp found
      | _ => cases path <;> cases leads

/-! ## The main result -/

/-- In a tree every array is at one depth only. -/
theorem TreeShaped.meetsOnlyAt (tree : heap.TreeShaped value) {path : List Nat}
    (leads : heap.inside? value path = some (.array address)) (dimensions : Nat) :
    heap.MeetsOnlyAt value dimensions path.length address :=
  fun _ other _ => congrArg List.length (tree.unique other leads)

/-- Retagging a tree declares for every array that it meets the type with the dimensions that are left. -/
theorem TreeShaped.elementType?_retag (tree : heap.TreeShaped value) {type : DeclaredType}
    {path : List Nat} (leads : heap.inside? value path = some (.array address))
    (short : path.length < type.dimensions) :
    (heap.retag value type).elementType? address = some (type.peel (path.length + 1)) :=
  elementType?_retagTo_of_met (tree.exists_array leads) (tree.meetsOnlyAt leads _)
    ⟨path, leads, short⟩

theorem retag_sameElements (heap : Heap) (value : Value) (type : DeclaredType) :
    heap.SameElements (heap.retag value type) :=
  sameElements_retagTo type.base type.dimensions heap value

/-- A tree in a heap is one in every heap with the same elements. -/
theorem TreeShaped.same {other : Heap} (tree : heap.TreeShaped value)
    (same : heap.SameElements other) : other.TreeShaped value where
  exists_array leads := same.size ▸ tree.exists_array (same.inside?_eq .. ▸ leads)
  unique first second := tree.unique (same.inside?_eq .. ▸ first) (same.inside?_eq .. ▸ second)

/-- What was declared once is not declared differently again. -/
theorem TreeShaped.retag_retag (tree : heap.TreeShaped value) (type : DeclaredType) :
    (heap.retag value type).retag value type = heap.retag value type := by
  have same := heap.retag_sameElements value type
  refine (retag_sameElements _ value type).eq fun address => ?_
  by_cases meets : (heap.retag value type).Meets value type.dimensions address
  · obtain ⟨path, leads, short⟩ := meets
    rw [(tree.same same).elementType?_retag leads short]
    rw [same.inside?_eq] at leads
    rw [tree.elementType?_retag leads short]
  · exact elementType?_retagTo_of_unmet meets

theorem TreeShaped.describe_retag (tree : heap.TreeShaped value) {type : DeclaredType}
    (conforming : heap.conforms value type = true) (nested : 0 < type.dimensions) :
    (heap.retag value type).describe value = type := by
  obtain ⟨base, dimensions⟩ := type
  cases dimensions with
  | zero => cases nested
  | succ dimensions =>
      obtain ⟨address, rfl⟩ := array_of_conformsTo conforming
      have whole : heap.inside? (.array address) [] = some (.array address) := rfl
      have declared := tree.elementType?_retag whole nested
      rw [describe, declared]
      rfl

/-- Retagging a tree that conforms to a type, whose word has no bracket in it, leaves all elements, and so the
value conforms as before. Every array inside of the value carries the type with the dimensions removed that
lead to its elements, and arrays that are outside of it or deeper than the type keep what they carry. No
array is deeper, unless the word is the one for arrays, which no declaration can use. A value of an array
type is described by the type, which can be read from the text again, and a second retagging changes
nothing. -/
theorem retag_stamps_tree (heap : Heap) (value : Value) (type : DeclaredType)
    (unbracketed : ∀ char ∈ type.base.toList, DeclaredType.isBracket char = false)
    (tree : heap.TreeShaped value) (conforming : heap.conforms value type = true) :
    (∀ address, (heap.retag value type).items address = heap.items address) ∧
    (heap.retag value type).conforms value type = true ∧
    (∀ path address, heap.inside? value path = some (.array address) →
      (type.base ≠ Tag.array.name → path.length < type.dimensions) ∧
      (path.length < type.dimensions →
        (heap.retag value type).elementType? address = some (type.peel (path.length + 1)))) ∧
    (∀ address, (∀ path, heap.inside? value path = some (.array address) → type.dimensions ≤ path.length) →
      (heap.retag value type).elementType? address = heap.elementType? address) ∧
    (0 < type.dimensions → ((heap.retag value type).describe value).text = type.text) ∧
    DeclaredType.ofName type.text = type ∧
    (heap.retag value type).retag value type = heap.retag value type := by
  refine ⟨items_retag value type, ?_, ?_, ?_, ?_, DeclaredType.ofName_text unbracketed,
    tree.retag_retag type⟩
  · rw [conforms_congr (items_retag value type)]
    exact conforming
  · intro path address leads
    exact ⟨fun plain => length_lt_of_conformsTo plain conforming leads, tree.elementType?_retag leads⟩
  · intro address beyond
    exact elementType?_retagTo_of_unmet fun ⟨path, leads, short⟩ =>
      Nat.not_lt_of_le (beyond path leads) short
  · intro nested
    rw [tree.describe_retag conforming nested]

/-- An array of two arrays, one of them empty and with a type of its own. -/
def twoRows : Heap :=
  ⟨#[⟨#[.array 1, .array 2], none⟩, ⟨#[.number .one], none⟩, ⟨#[], some (.simple "string")⟩]⟩

theorem inside?_twoRows {path : List Nat}
    (leads : twoRows.inside? (.array 0) path = some (.array address)) :
    (path = [] ∧ address = 0) ∨ (path = [0] ∧ address = 1) ∨ (path = [1] ∧ address = 2) := by
  match path with
  | [] => exact .inl ⟨rfl, (Value.array.inj (Option.some.inj leads)).symm⟩
  | [0] => exact .inr (.inl ⟨rfl, (Value.array.inj (Option.some.inj leads)).symm⟩)
  | [1] => exact .inr (.inr ⟨rfl, (Value.array.inj (Option.some.inj leads)).symm⟩)
  | [place + 2] => cases leads
  | 0 :: [0] => cases leads
  | 0 :: 0 :: _ :: _ => cases leads
  | 0 :: (place + 1) :: _ => cases leads
  | 1 :: place :: _ => cases leads
  | (place + 2) :: _ :: _ => cases leads

theorem twoRows_tree : twoRows.TreeShaped (.array 0) where
  exists_array leads := by
    rcases inside?_twoRows leads with ⟨-, rfl⟩ | ⟨-, rfl⟩ | ⟨-, rfl⟩ <;> decide
  unique first second := by
    rcases inside?_twoRows first with ⟨rfl, rfl⟩ | ⟨rfl, rfl⟩ | ⟨rfl, rfl⟩ <;>
      rcases inside?_twoRows second with ⟨rfl, same⟩ | ⟨rfl, same⟩ | ⟨rfl, same⟩ <;>
        first | rfl | cases same

/-- All three arrays get the element types of a table of numbers, the empty one too. -/
theorem retag_stamps_tree_of_rows :
    twoRows.TreeShaped (.array 0) ∧ twoRows.conforms (.array 0) ⟨"number", 2⟩ = true ∧
    (twoRows.retag (.array 0) ⟨"number", 2⟩).elementType? 0 = some ⟨"number", 1⟩ ∧
    (twoRows.retag (.array 0) ⟨"number", 2⟩).elementType? 1 = some ⟨"number", 0⟩ ∧
    (twoRows.retag (.array 0) ⟨"number", 2⟩).elementType? 2 = some ⟨"number", 0⟩ ∧
    ((twoRows.retag (.array 0) ⟨"number", 2⟩).describe (.array 0)).text = "number[][]" := by
  have conforming : twoRows.conforms (.array 0) ⟨"number", 2⟩ = true := by
    decide +kernel
  have unbracketed : ∀ char ∈ "number".toList, DeclaredType.isBracket char = false := by
    simp [DeclaredType.isBracket]
  obtain ⟨-, -, stamped, -, described, -, -⟩ :=
    retag_stamps_tree twoRows (.array 0) ⟨"number", 2⟩ unbracketed twoRows_tree conforming
  exact ⟨twoRows_tree, conforming, (stamped [] 0 rfl).2 (by decide), (stamped [0] 1 rfl).2 (by decide),
    (stamped [1] 2 rfl).2 (by decide), (described (by decide)).trans (by decide)⟩

end Onepass.Heap
