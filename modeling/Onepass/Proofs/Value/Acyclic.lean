import Mathlib.Data.Finset.Card
import Mathlib.Data.Finset.Range
import Mathlib.Logic.Relation
import Onepass.Proofs.Typing.Heap

/-! # Arrays that do not hold themselves

A value is acyclic if no array that can be reached from it can be reached from its own elements. On the
way from an acyclic value into its arrays no array is met twice, so that no way is longer than there are
arrays in the heap.
-/

set_option autoImplicit false

namespace Onepass.Heap

/-- The elements of a value; only arrays have some. -/
def elements (heap : Heap) : Value → List Value
  | .array address => (heap.items address).toList
  | _ => []

/-- One value is an element of the other. -/
def Holds (heap : Heap) (holder element : Value) : Prop :=
  element ∈ heap.elements holder

/-- Nothing inside the value, and not the value itself, holds itself, be it through other arrays. -/
def Acyclic (heap : Heap) (value : Value) : Prop :=
  ∀ inner, Relation.ReflTransGen heap.Holds value inner → ¬ Relation.TransGen heap.Holds inner inner

/-- Every way into the arrays of the value ends after so many steps. -/
def Nests (heap : Heap) : Nat → Value → Prop
  | 0, value => heap.elements value = []
  | depth + 1, value => ∀ element ∈ heap.elements value, heap.Nests depth element

variable {heap : Heap} {value inner : Value}

/-- Whatever holds something is an array in the heap. -/
theorem Holds.exists_array (holds : heap.Holds value inner) :
    ∃ address, value = .array address ∧ address < heap.size := by
  cases value with
  | array address =>
      refine ⟨address, rfl, ?_⟩
      by_contra outside
      rw [Holds, elements, items_of_size_le (not_lt.1 outside)] at holds
      cases holds
  | _ => cases holds

theorem Acyclic.of_holds (acyclic : heap.Acyclic value) (holds : heap.Holds value inner) :
    heap.Acyclic inner :=
  fun further reached => acyclic further (.head holds reached)

/-- A value is acyclic if its elements are: a way back to it would lead an element back to itself. -/
theorem acyclic_of_elements (elements : ∀ element ∈ heap.elements value, heap.Acyclic element) :
    heap.Acyclic value := by
  intro inner reached cycle
  rcases reached.cases_head with rfl | ⟨element, holds, further⟩
  · obtain ⟨element, holds, back⟩ := Relation.TransGen.head'_iff.1 cycle
    exact elements element holds element .refl (.tail' back holds)
  · exact elements element holds inner further cycle

theorem acyclic_of_tag (plain : value.tag ≠ .array) : heap.Acyclic value := by
  refine acyclic_of_elements fun element holds => ?_
  obtain ⟨address, rfl, -⟩ := Holds.exists_array holds
  exact absurd rfl plain

/-- Arrays through which the value is reached. -/
structure Way (heap : Heap) (holders : Finset Address) (value : Value) : Prop where
  inside : holders ⊆ Finset.range heap.size
  reaches : ∀ address ∈ holders, Relation.TransGen heap.Holds (.array address) value

/-- On the way into an acyclic value every step meets another array. -/
theorem Way.step {holders : Finset Address} (way : heap.Way holders value)
    (acyclic : heap.Acyclic value) (holds : heap.Holds value inner) :
    ∃ more : Finset Address, more.card = holders.card + 1 ∧ heap.Way more inner := by
  obtain ⟨address, rfl, bound⟩ := holds.exists_array
  have fresh : address ∉ holders := fun member => acyclic _ .refl (way.reaches address member)
  refine ⟨insert address holders, Finset.card_insert_of_notMem fresh,
    Finset.insert_subset (Finset.mem_range.2 bound) way.inside, fun holder member => ?_⟩
  rcases Finset.mem_insert.1 member with rfl | earlier
  · exact .single holds
  · exact .tail (way.reaches holder earlier) holds

/-- What is left of the heap bounds the depth of the value. -/
theorem Way.nests {holders : Finset Address} (way : heap.Way holders value)
    (acyclic : heap.Acyclic value) {depth : Nat} (room : holders.card + depth = heap.size) :
    heap.Nests depth value := by
  induction depth generalizing value holders with
  | zero =>
      rw [Nests, List.eq_nil_iff_forall_not_mem]
      intro inner holds
      obtain ⟨more, card, further⟩ := way.step acyclic holds
      have bounded := Finset.card_le_card further.inside
      rw [Finset.card_range] at bounded
      omega
  | succ depth ih =>
      intro inner holds
      obtain ⟨more, card, further⟩ := way.step acyclic holds
      exact ih further (acyclic.of_holds holds) (by omega)

theorem Acyclic.nests (acyclic : heap.Acyclic value) : heap.Nests heap.size value := by
  have start : heap.Way ∅ value := ⟨Finset.empty_subset _, by simp⟩
  exact start.nests acyclic (by simp)

/-! ## Acyclic values can be written -/

theorem exists_mapM {α β : Type} {action : α → Option β} {list : List α}
    (each : ∀ item ∈ list, ∃ result, action item = some result) :
    ∃ results, list.mapM action = some results := by
  induction list with
  | nil => exact ⟨[], rfl⟩
  | cons first rest ih =>
      obtain ⟨result, found⟩ := each first List.mem_cons_self
      obtain ⟨results, others⟩ := ih fun item member => each item (List.mem_cons_of_mem _ member)
      exact ⟨result :: results, by simp [found, others]⟩

/-- What is left of the heap is enough to write the value, if no array in it is missing. -/
theorem Way.exists_text {holders : Finset Address} (way : heap.Way holders value)
    (acyclic : heap.Acyclic value) (within : value.Within heap) (closed : heap.Closed)
    (style : ValueStyle) {depth : Nat} (room : holders.card + depth = heap.size) :
    ∃ text, heap.textWithin style depth value = some text := by
  induction depth generalizing value holders with
  | zero =>
      cases value with
      | array address =>
          -- Every array was met on the way, so this one too.
          have all : holders = Finset.range heap.size :=
            Finset.eq_of_subset_of_card_le way.inside (by rw [Finset.card_range]; omega)
          have met : address ∈ holders := all ▸ Finset.mem_range.2 (within address rfl)
          exact absurd (way.reaches address met) (acyclic _ .refl)
      | _ => exact ⟨_, rfl⟩
  | succ depth ih =>
      cases value with
      | array address =>
          have each : ∀ element ∈ (heap.items address).toList,
              ∃ text, heap.textWithin style depth element = some text := by
            intro element member
            have holds : heap.Holds (.array address) element := member
            obtain ⟨more, card, further⟩ := way.step acyclic holds
            exact ih further (acyclic.of_holds holds)
              (closed address element (Array.mem_toList_iff.1 member)) (by omega)
          obtain ⟨texts, written⟩ := exists_mapM each
          exact ⟨_, by rw [textWithin, written]; rfl⟩
      | _ => exact ⟨_, rfl⟩

theorem Acyclic.exists_text (acyclic : heap.Acyclic value) (within : value.Within heap)
    (closed : heap.Closed) (style : ValueStyle) : ∃ text, heap.text? style value = some text := by
  have start : heap.Way ∅ value := ⟨Finset.empty_subset _, by simp⟩
  exact start.exists_text acyclic within closed style (by simp)

end Onepass.Heap
