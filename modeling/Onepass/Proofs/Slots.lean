import Onepass.Proofs.Decimal.Value
import Onepass.Proofs.Tree.Agreement
import Onepass.Proofs.Tree.Assignment
import Onepass.Proofs.Tree.CallFree
import Onepass.Proofs.Typing.Soundness

/-! # Assignments to elements

An assignment through indices follows references from array to array, and finds its slot before the new
value is evaluated. As long as nothing is called on the way, the arrays that there were before the statement
tell where the indices lead, and the one slot that is found there is all that changes. This needs a
machine in which nothing refers to an array that does not exist, lest an array that an index makes becomes
what the variable holds; executions come to no other machines.
-/

set_option autoImplicit false

namespace Onepass

/-! ## Where indices lead -/

namespace Heap

/-- The index is the number of a place in the array. -/
def Indexes (heap : Heap) (address : Address) (index : Value) (place : Nat) : Prop :=
  ∃ number : Decimal, index = .number number ∧ number.value = place ∧ place < (heap.items address).size

/-- The indices lead from a container, through arrays only, to a slot of an array. -/
inductive Leads (heap : Heap) : Value → List Value → Address → Nat → Prop
  | last {address : Address} {index : Value} {place : Nat} (inside : heap.Indexes address index place) :
      Leads heap (.array address) [index] address place
  | onward {address target : Address} {index : Value} {place slot : Nat} {rest : List Value}
      (inside : heap.Indexes address index place)
      (behind : Leads heap ((heap.items address).getD place .null) rest target slot) :
      Leads heap (.array address) (index :: rest) target slot

variable {heap other : Heap} {container : Value} {indices : List Value} {address : Address} {slot : Nat}

theorem not_leads_nil : ¬ heap.Leads container [] address slot :=
  nofun

theorem Leads.lt_size (leads : heap.Leads container indices address slot) :
    slot < (heap.items address).size := by
  induction leads with
  | last inside =>
      obtain ⟨_, _, _, lt⟩ := inside
      exact lt
  | onward _ _ ih => exact ih

/-- A slot is in an array that exists. -/
theorem Leads.exists_array (leads : heap.Leads container indices address slot) : address < heap.size := by
  by_contra outside
  have lt := leads.lt_size
  rw [items_of_size_le (Nat.le_of_not_lt outside)] at lt
  exact Nat.not_lt_zero _ lt

/-- Arrays that were made since do not matter to where indices lead, nor does what they hold. -/
theorem Leads.transfer {bound : Nat} (leads : heap.Leads container indices address slot)
    (agree : ∀ found < bound, other.items found = heap.items found)
    (closed : ∀ found < bound, ∀ element ∈ heap.items found, ∀ target, element = .array target →
      target < bound)
    (within : ∀ found, container = .array found → found < bound) :
    other.Leads container indices address slot := by
  have indexes {found : Address} {index : Value} {place : Nat} (known : found < bound)
      (inside : heap.Indexes found index place) : other.Indexes found index place := by
    unfold Indexes
    rwa [agree found known]
  induction leads with
  | last inside => exact .last (indexes (within _ rfl) inside)
  | @onward found target index place slot rest inside behind ih =>
      have known := within found rfl
      refine .onward (indexes known inside) ?_
      rw [agree found known]
      apply ih
      obtain ⟨_, _, _, lt⟩ := inside
      refine closed found known _ ?_
      rw [Array.getD_eq_getD_getElem?, Array.getElem?_eq_getElem lt]
      exact Array.getElem_mem lt

end Heap

namespace Exec

variable {machine final : Machine} {container : Value} {address : Address} {slot : Nat}

theorem placeOf_ok_iff {length place : Nat} {index : Value} {token : Token} :
    placeOf length index token machine = .ok place final ↔
      final = machine ∧ ∃ number : Decimal, index = .number number ∧ number.value = place ∧
        place < length := by
  constructor
  · intro succeeded
    refine ⟨(unchanged.placeOf _ _ _).ok succeeded, ?_⟩
    have inside := placeOf_lt succeeded
    unfold placeOf at succeeded
    split at succeeded
    case _ number =>
      refine ⟨number, rfl, ?_, inside⟩
      split at succeeded
      · exact absurd succeeded refuse_ne_ok
      · case _ whole =>
        split at succeeded
        · case _ bounds =>
          obtain ⟨rfl, -⟩ := pure_ok succeeded
          simp only [Bool.and_eq_true, decide_eq_true_eq] at bounds
          rw [Decimal.value_eq_truncated (by simpa using whole)]
          exact_mod_cast (Int.toNat_of_nonneg bounds.1).symm
        · split at succeeded
          · cases succeeded
          · exact absurd succeeded refuse_ne_ok
    case _ => exact absurd succeeded bind_refuse_ne_ok
  · rintro ⟨rfl, number, rfl, denotes, inside⟩
    have integral : number.isIntegral = true := Decimal.isIntegral_iff.mpr ⟨place, by rw [denotes]; rfl⟩
    have cut : number.truncated = place := by
      have same := Decimal.value_eq_truncated integral
      rw [denotes] at same
      exact_mod_cast same.symm
    unfold placeOf
    simp only [integral, cut, Bool.not_true, Bool.false_eq_true, if_false]
    rw [if_pos (by simpa using inside)]
    rfl

theorem elementAt_array_ok_iff {index element : Value} {token : Token} :
    elementAt (.array address) index token machine = .ok element final ↔
      final = machine ∧ ∃ place, machine.heap.Indexes address index place ∧
        element = (machine.heap.items address).getD place .null := by
  constructor
  · intro succeeded
    obtain ⟨place, _, placed, ended⟩ := bind_ok (get_bind_ok succeeded)
    obtain ⟨rfl, inside⟩ := placeOf_ok_iff.mp placed
    cases ended
    exact ⟨rfl, place, inside, rfl⟩
  · rintro ⟨rfl, place, inside, rfl⟩
    rw [elementAt, get_bind_eq, bind_of_ok (placeOf_ok_iff.mpr ⟨rfl, inside⟩)]
    rfl

/-- Nothing is selected in what is no array. -/
theorem selectElement_plain {name : Token} {value : Value} (plain : ∀ address, value ≠ .array address)
    (unindexed : ∀ text, value ≠ .string text) (index : Token × Value) (rest : List (Token × Value))
    (target : Target) : selectElement name value (index :: rest) machine ≠ .ok target final := by
  intro succeeded
  cases rest with
  | nil =>
      unfold selectElement at succeeded
      cases value with
      | array address => exact plain address rfl
      | _ => exact refuse_ne_ok succeeded
  | cons next others =>
      obtain ⟨element, _, found, _⟩ := bind_ok succeeded
      unfold elementAt at found
      cases value with
      | array address => exact plain address rfl
      | string text => exact unindexed text rfl
      | _ => exact bind_refuse_ne_ok found

/-- The slot that is selected is the one to which the indices lead. -/
theorem selectElement_ok_iff {name : Token} {indices : List Value} :
    selectElement name container (indices.map (Token.mark .leftBracket, ·)) machine =
        .ok (.element address slot) final ↔
      final = machine ∧ machine.heap.Leads container indices address slot := by
  induction indices generalizing container with
  | nil => exact iff_of_false (fun succeeded => nomatch succeeded) (fun both => Heap.not_leads_nil both.2)
  | cons index rest ih =>
      cases rest with
      | nil =>
          constructor
          · intro succeeded
            unfold selectElement at succeeded
            cases container with
            | array found =>
                obtain ⟨place, _, placed, ended⟩ := bind_ok (get_bind_ok succeeded)
                obtain ⟨rfl, inside⟩ := placeOf_ok_iff.mp placed
                obtain ⟨same, rfl⟩ := pure_ok ended
                cases same
                exact ⟨rfl, .last inside⟩
            | _ => exact absurd succeeded refuse_ne_ok
          · rintro ⟨rfl, leads⟩
            cases leads with
            | last inside => exact bind_of_ok (placeOf_ok_iff.mpr ⟨rfl, inside⟩) _
            | onward _ behind => exact absurd behind Heap.not_leads_nil
      | cons next others =>
          constructor
          · intro succeeded
            obtain ⟨element, middle, found, behind⟩ := bind_ok succeeded
            obtain rfl := (unchanged.elementAt _ _ _).ok found
            cases container with
            | array reached =>
                obtain ⟨-, place, inside, rfl⟩ := elementAt_array_ok_iff.mp found
                obtain ⟨rfl, leads⟩ := ih.mp behind
                exact ⟨rfl, .onward inside leads⟩
            | string text =>
                -- What stands in a text is a character, in which nothing can be selected.
                obtain ⟨place, _, _, ended⟩ := bind_ok found
                obtain ⟨rfl, -⟩ := pure_ok ended
                exact absurd behind (selectElement_plain (by simp) (by simp) _ _ _)
            | _ => exact absurd succeeded (selectElement_plain (by simp) (by simp) _ _ _)
          · rintro ⟨rfl, leads⟩
            cases leads with
            | onward inside behind =>
                exact (bind_of_ok (elementAt_array_ok_iff.mpr ⟨rfl, _, inside, rfl⟩) _).trans
                  (ih.mpr ⟨rfl, behind⟩)

end Exec

/-! ## Arrays that were there before -/

namespace Machine.Spared

variable {first last : Machine} (spared : first.Spared last) {address : Address}

include spared

theorem cell (old : address < first.heap.size) :
    last.heap.cells[address]? = first.heap.cells[address]? := by
  obtain ⟨made, same⟩ := spared.arrays
  rw [← Array.getElem?_toList, ← same, List.getElem?_append_left (by simpa [Heap.size] using old),
    Array.getElem?_toList]

theorem items (old : address < first.heap.size) : last.heap.items address = first.heap.items address := by
  rw [Heap.items, Heap.items, spared.cell old]

theorem elementType (old : address < first.heap.size) :
    last.heap.elementType? address = first.heap.elementType? address := by
  rw [Heap.elementType?, Heap.elementType?, spared.cell old]

end Machine.Spared

theorem Machine.Grounded.leads_iff {first last : Machine} (grounded : first.Grounded)
    (spared : first.Spared last) {name : String} {binding : Binding}
    (bound : first.scopes.lookup? name = some binding) {indices : List Value} {address : Address}
    {slot : Nat} :
    last.heap.Leads binding.value indices address slot ↔
      first.heap.Leads binding.value indices address slot := by
  have within := grounded.bindings binding (Scopes.has_of_lookup bound)
  constructor
  · intro leads
    refine leads.transfer (fun found old => (spared.items old).symm)
      (fun found old element member => ?_) within
    rw [spared.items old] at member
    exact grounded.heap found element member
  · intro leads
    exact leads.transfer (fun found old => spared.items old) (fun found _ => grounded.heap found) within

/-! ## Writing a slot -/

/-- The heap after a value was adopted. -/
def Heap.adopted (heap : Heap) (value : Value) : Option DeclaredType → Heap
  | some type => heap.retag value type
  | none => heap

@[simp] theorem Heap.items_adopted (heap : Heap) (value : Value) (expected : Option DeclaredType)
    (address : Address) : (heap.adopted value expected).items address = heap.items address := by
  cases expected with
  | none => rfl
  | some type => exact items_retag value type address

/-- What the value of an expression needs in order to be assigned to an element, and what comes of it. -/
structure SlotWrite (script : Script) (verbosity : Nat) (machine : Machine) (destination : Destination)
    (value : Phrase) where
  binding : Binding
  indices : List Value
  stored : Value
  /-- The machine when all expressions were evaluated. -/
  evaluated : Machine
  address : Address
  slot : Nat
  bound : machine.scopes.lookup? destination.name = some binding
  mutable : binding.constant = false
  evaluates : Exec.Settles
    (fun fuel => Expr.evaluateAll script verbosity fuel (destination.indices ++ [value.tree])) machine
    (some (.ok (indices ++ [stored]) evaluated))
  leads : machine.heap.Leads binding.value indices address slot
  conforms : ∀ type,
    Exec.expectedType machine.heap binding destination.places.length (.element address slot) = some type →
      evaluated.heap.conforms stored type = true

namespace Exec

variable {script : Script} {verbosity fuel more : Nat} {machine final : Machine}

/-- A value is adopted if it conforms to what is expected, if anything is. -/
theorem adopt_ok_iff {value : Value} {expected : Option DeclaredType} {position : Position}
    {result : Unit} :
    adopt value expected position machine = .ok result final ↔
      (∀ type, expected = some type → machine.heap.conforms value type = true) ∧
        final = { machine with heap := machine.heap.adopted value expected } := by
  cases expected with
  | none =>
      constructor
      · intro succeeded
        cases succeeded
        exact ⟨nofun, rfl⟩
      · rintro ⟨-, rfl⟩
        rfl
  | some type =>
      constructor
      · intro succeeded
        obtain ⟨conforming, same⟩ := adopt_ok succeeded
        exact ⟨fun _ known => Option.some.inj known ▸ conforming, same⟩
      · rintro ⟨conforming, rfl⟩
        have checked : checkAssigned value type position machine = .ok () machine := by
          change (if machine.heap.conforms value type = true then _ else _ : Exec Unit) machine = _
          rw [if_pos (conforming type rfl)]
          rfl
        rw [adopt, bind_of_ok checked]
        rfl

end Exec

theorem Exec.expectedType_congr {heap other : Heap} {address : Address}
    (same : heap.elementType? address = other.elementType? address) (binding : Binding) (count slot : Nat) :
    expectedType heap binding count (.element address slot) =
      expectedType other binding count (.element address slot) := by
  simp only [expectedType, same]

/-! ## Evaluating without calls -/

/-- Machines that differ in how many statements were counted. -/
def Coupling.counted : Coupling where
  positions _ _ := True
  machines first second := ∃ steps, first = { second with steps }
  lenient := False

theorem Coupling.counted_stores : Coupling.counted.Stores where
  same := by
    rintro _ machine ⟨steps, rfl⟩
    exact ⟨rfl, rfl, rfl, rfl, rfl⟩
  stored := by
    rintro _ machine ⟨steps, rfl⟩ heap
    exact ⟨steps, rfl⟩

namespace Expr

variable {script : Script} {verbosity fuel : Nat} {machine final : Machine} {trees : List Expr}

theorem evaluateAll_append (trees : List Expr) (tree : Expr) :
    evaluateAll script verbosity fuel (trees ++ [tree]) = (do
      let values ← evaluateAll script verbosity fuel trees
      let value ← tree.evaluate script verbosity fuel
      return values ++ [value]) := by
  induction trees with
  | nil => simp only [List.nil_append, evaluateAll, pure_bind]
  | cons first trees ih => simp only [List.cons_append, evaluateAll, ih, pure_bind, bind_assoc]

theorem evaluateAll_append_ok_iff {tree : Expr} {values : List Value} {value : Value} :
    evaluateAll script verbosity fuel (trees ++ [tree]) machine = .ok (values ++ [value]) final ↔
      ∃ middle, evaluateAll script verbosity fuel trees machine = .ok values middle ∧
        tree.evaluate script verbosity fuel middle = .ok value final := by
  rw [evaluateAll_append]
  constructor
  · intro evaluated
    obtain ⟨_, middle, first, rest⟩ := Exec.bind_ok evaluated
    obtain ⟨_, _, last, ended⟩ := Exec.bind_ok rest
    obtain ⟨same, rfl⟩ := Exec.pure_ok ended
    obtain ⟨rfl, rfl⟩ := List.append_inj' same rfl |>.imp_right List.singleton_inj.mp
    exact ⟨middle, first, last⟩
  · rintro ⟨middle, first, last⟩
    rw [Exec.bind_of_ok first]
    exact Exec.bind_of_ok last _

/-- How many statements were counted does not matter to trees without calls, and fuel does not either. -/
theorem settles_counted (free : ∀ tree ∈ trees, tree.CallFree True) {steps : Nat} {values : List Value}
    (evaluated : evaluateAll script verbosity fuel trees { machine with steps } = .ok values final) :
    ∃ counted, Exec.Settles (fun fuel => evaluateAll script verbosity fuel trees) machine
      (some (.ok values { final with steps := counted })) := by
  obtain ⟨outcome, enough, settled⟩ : ∃ outcome,
      Exec.Settles (fun fuel => evaluateAll script verbosity fuel trees) machine outcome :=
    Exec.settles_of_fuelled machine fun _ => pairs_all fun tree member =>
      (free tree member).pairs (Exec.fuelled_laws script).stores rfl
  have outcomes : Coupling.counted.Outcomes Eq
      (evaluateAll script verbosity fuel trees { machine with steps })
      (evaluateAll script verbosity enough trees machine) :=
    pairs_all (fun tree member => (free tree member).pairs Coupling.counted_stores trivial) ⟨steps, rfl⟩
  rw [evaluated] at outcomes
  generalize ran : evaluateAll script verbosity enough trees machine = twin at outcomes
  cases outcomes with
  | @succeeded _ _ _ after same apart =>
      obtain ⟨_, rfl⟩ := apart
      obtain rfl := same
      have found : Exec.completed (evaluateAll script verbosity enough trees machine) = outcome :=
        settled enough (Nat.le_refl _)
      rw [ran] at found
      obtain rfl := found
      exact ⟨after.steps, enough, settled⟩

theorem callFree_append {tree : Expr} (free : ∀ tree ∈ trees, tree.CallFree True)
    (freeLast : tree.CallFree True) : ∀ element ∈ trees ++ [tree], element.CallFree True := by
  intro element member
  rcases List.mem_append.mp member with among | last
  · exact free element among
  · exact List.mem_singleton.mp last ▸ freeLast

/-- Trees without calls spare the machine. -/
theorem spared_of_evaluated (free : ∀ tree ∈ trees, tree.CallFree True) {values : List Value}
    (evaluated : evaluateAll script verbosity fuel trees machine = .ok values final) :
    machine.Spared final :=
  (keeps_all ⟨.refl, .trans⟩ fun tree member => (free tree member).sparing).ok evaluated

end Expr

theorem Destination.length_of_evaluated (destination : Destination) {script : Script} {verbosity fuel : Nat}
    {machine final : Machine} {indices : List Value}
    (evaluated : Expr.evaluateAll script verbosity fuel destination.indices machine = .ok indices final) :
    indices.length = destination.places.length := by
  rw [Expr.evaluateAll_length evaluated, Destination.indices, List.length_map]

namespace SlotWrite

variable {script : Script} {verbosity : Nat} {machine : Machine} {destination : Destination}
variable {value : Phrase}

/-- The type that is expected of the stored value. -/
def expected (write : SlotWrite script verbosity machine destination value) : Option DeclaredType :=
  Exec.expectedType machine.heap write.binding destination.places.length (.element write.address write.slot)

/-- The machine after the write. -/
def done (write : SlotWrite script verbosity machine destination value) : Machine :=
  { write.evaluated with
    heap := (write.evaluated.heap.adopted write.stored write.expected).write write.address write.slot
      write.stored }

variable (write : SlotWrite script verbosity machine destination value)

/-- The write is carried out. -/
theorem performs (grounded : machine.Grounded)
    (free : ∀ tree ∈ destination.indices, tree.CallFree True) (freeValue : value.tree.CallFree True) :
    Exec.Settles (Assignment.perform script verbosity ⟨destination, .replaced value⟩) machine
      (some (.ok () write.done)) := by
  obtain ⟨enough, settled⟩ := write.evaluates
  refine ⟨enough, fun fuel le => ?_⟩
  have evaluated : Expr.evaluateAll script verbosity fuel (destination.indices ++ [value.tree]) machine =
      .ok (write.indices ++ [write.stored]) write.evaluated := Exec.eq_of_completed (settled fuel le)
  obtain ⟨middle, indexed, computed⟩ := Expr.evaluateAll_append_ok_iff.mp evaluated
  have spared := Expr.spared_of_evaluated free indexed
  have count := destination.length_of_evaluated indexed
  have bound : middle.scopes.lookup? destination.name = some write.binding := by
    rw [spared.scopes]
    exact write.bound
  have selected := (@Exec.selectElement_ok_iff _ _ _ _ _ (Token.name destination.name) _).mpr
    ⟨rfl, (grounded.leads_iff spared write.bound).mpr write.leads⟩
  have expected := Exec.expectedType_congr ((spared.trans (freeValue.sparing.ok computed)).elementType
    write.leads.exists_array) write.binding destination.places.length write.slot
  have read : Exec.targetValue write.binding (.element write.address write.slot) middle =
      .ok ((middle.heap.items write.address).getD write.slot .null) middle := rfl
  have adopted : Exec.adopt write.stored (Exec.expectedType write.evaluated.heap write.binding
      write.indices.length (.element write.address write.slot)) .start write.evaluated =
        .ok () { write.evaluated with
          heap := write.evaluated.heap.adopted write.stored write.expected } := by
    rw [count, expected]
    exact Exec.adopt_ok_iff.mpr ⟨write.conforms, rfl⟩
  have performed : Assignment.perform script verbosity ⟨destination, .replaced value⟩ fuel machine =
      .ok () write.done := by
    unfold Assignment.perform
    rw [Exec.bind_of_ok (Exec.bindingOf_eq write.bound), Exec.bind_of_ok indexed,
      Exec.bind_of_ok (Exec.bindingOf_eq bound)]
    simp only [write.mutable, Bool.false_eq_true, if_false]
    rw [Exec.bind_of_ok selected, Exec.bind_of_ok read]
    refine (Exec.bind_of_ok computed _).trans ?_
    rw [Exec.get_bind_eq]
    exact Exec.bind_of_ok adopted _
  rw [performed]
  rfl

end SlotWrite

/-- An assignment to an element that succeeds writes a slot. -/
theorem exists_slotWrite {script : Script} {verbosity fuel steps : Nat} {machine final : Machine}
    (grounded : machine.Grounded) {destination : Destination} {value : Phrase}
    (indexed : destination.places ≠ []) (free : ∀ tree ∈ destination.indices, tree.CallFree True)
    (freeValue : value.tree.CallFree True)
    (performed : Assignment.perform script verbosity ⟨destination, .replaced value⟩ fuel
      { machine with steps } = .ok () final) :
    Nonempty (SlotWrite script verbosity machine destination value) := by
  obtain ⟨_, _, looked, reading⟩ := Exec.bind_ok performed
  obtain rfl := (unchanged.bindingOf _).ok looked
  obtain ⟨indices, middle, evaluated, looking⟩ := Exec.bind_ok reading
  have spared := Expr.spared_of_evaluated free evaluated
  obtain ⟨binding, _, found, checking⟩ := Exec.bind_ok looking
  obtain ⟨bound, rfl⟩ := Exec.bindingOf_ok found
  obtain ⟨mutable, selecting⟩ := Exec.guarded_ok checking
  obtain ⟨target, _, selected, holding⟩ := Exec.bind_ok selecting
  obtain rfl := (unchanged.selectElement _ _ _).ok selected
  obtain ⟨old, _, read, computing⟩ := Exec.bind_ok holding
  obtain rfl := (unchanged.targetValue _ _).ok read
  obtain ⟨stored, after, computed, adopting⟩ := Exec.bind_ok computing
  obtain ⟨_, _, adopted, _⟩ := Exec.bind_ok (Exec.get_bind_ok adopting)
  have count := destination.length_of_evaluated evaluated
  cases target with
  | named =>
      have none : indices = [] := List.map_eq_nil_iff.mp (Exec.selected_nothing selected)
      rw [none, List.length_nil] at count
      exact absurd (List.length_eq_zero_iff.mp count.symm) indexed
  | element address slot =>
      rw [spared.scopes] at bound
      have standing : { machine with steps }.Grounded := ⟨grounded.bindings, grounded.heap⟩
      have leads := (standing.leads_iff spared bound).mp (Exec.selectElement_ok_iff.mp selected).2
      have all : Expr.evaluateAll script verbosity fuel (destination.indices ++ [value.tree])
          { machine with steps } = .ok (indices ++ [stored]) after :=
        Expr.evaluateAll_append_ok_iff.mpr ⟨_, evaluated, computed⟩
      obtain ⟨counted, settles⟩ := Expr.settles_counted (Expr.callFree_append free freeValue) all
      have kept := (spared.trans (freeValue.sparing.ok computed)).elementType leads.exists_array
      refine ⟨⟨binding, indices, stored, _, address, slot, bound, by simpa using mutable, settles, leads,
        ?_⟩⟩
      intro type known
      rw [← Exec.expectedType_congr kept, ← count] at known
      exact (Exec.adopt_ok_iff.mp adopted).1 type known

/-- How many statements were counted does not matter to a write. -/
theorem SlotWrite.counted {script : Script} {verbosity : Nat} {machine : Machine}
    {destination : Destination} {value : Phrase} (write : SlotWrite script verbosity machine destination value)
    (free : ∀ tree ∈ destination.indices, tree.CallFree True) (freeValue : value.tree.CallFree True)
    (steps : Nat) :
    ∃ other : SlotWrite script verbosity { machine with steps } destination value,
      other.done.scopes = write.done.scopes ∧ other.done.heap = write.done.heap := by
  obtain ⟨fuel, evaluated⟩ := write.evaluates.exists_eq
  obtain ⟨counted, settles⟩ := @Expr.settles_counted script verbosity fuel { machine with steps } _ _
    (Expr.callFree_append free freeValue) machine.steps _ evaluated
  exact ⟨⟨write.binding, write.indices, write.stored, _, write.address, write.slot, write.bound,
    write.mutable, settles, write.leads, write.conforms⟩, rfl, rfl⟩

/-- The slot holds the new value, and nothing else changed that was there before. -/
structure SlotWrite.Hits {script : Script} {verbosity : Nat} {machine : Machine} {destination : Destination}
    {value : Phrase} (write : SlotWrite script verbosity machine destination value) (final : Machine) :
    Prop where
  stored : (final.heap.items write.address)[write.slot]? = some write.stored
  lengths : ∀ array < machine.heap.size, (final.heap.items array).size = (machine.heap.items array).size
  others : ∀ array < machine.heap.size, ∀ place, array ≠ write.address ∨ place ≠ write.slot →
    (final.heap.items array)[place]? = (machine.heap.items array)[place]?
  /-- The arrays that the expressions made are as they were made. -/
  fresh : ∀ array, machine.heap.size ≤ array →
    final.heap.items array = write.evaluated.heap.items array
  scopes : final.scopes = machine.scopes
  /-- However the array is reached, the new value is read from it. -/
  aliases : ∀ (container place : Expr) (index : Value) (fuel : Nat),
    container.evaluate script verbosity fuel final = .ok (.array write.address) final →
      place.evaluate script verbosity fuel final = .ok index final →
        final.heap.Indexes write.address index write.slot →
          (Expr.index container place).evaluate script verbosity fuel final = .ok write.stored final

theorem SlotWrite.hits {script : Script} {verbosity : Nat} {machine final : Machine}
    {destination : Destination} {value : Phrase}
    (write : SlotWrite script verbosity machine destination value)
    (free : ∀ tree ∈ destination.indices, tree.CallFree True) (freeValue : value.tree.CallFree True)
    (scopes : final.scopes = write.done.scopes) (heap : final.heap = write.done.heap) :
    write.Hits final := by
  obtain ⟨_, evaluated⟩ := write.evaluates.exists_eq
  have spared := Expr.spared_of_evaluated (Expr.callFree_append free freeValue) evaluated
  have items (array : Address) : final.heap.items array =
      if array = write.address then
        (write.evaluated.heap.items array).setIfInBounds write.slot write.stored
      else write.evaluated.heap.items array := by
    rw [heap, done, Heap.items_write, Heap.items_adopted]
  have old := write.leads.exists_array
  have inside : write.slot < (write.evaluated.heap.items write.address).size := by
    rw [spared.items old]
    exact write.leads.lt_size
  have holds : (final.heap.items write.address)[write.slot]? = some write.stored := by
    rw [items, if_pos rfl, Array.getElem?_setIfInBounds_self_of_lt inside]
  refine ⟨holds, fun array known => ?_, fun array known place other => ?_, fun array made => ?_, ?_, ?_⟩
  · rw [items, ← spared.items known]
    split
    · exact Array.size_setIfInBounds
    · rfl
  · rw [items, ← spared.items known]
    split
    case isTrue same => exact Array.getElem?_setIfInBounds_ne (other.resolve_left (absurd same)).symm
    case isFalse => rfl
  · rw [items, if_neg]
    exact fun same => Nat.not_lt_of_le made (same ▸ old)
  · rw [scopes]
    exact spared.scopes
  · intro container place index fuel reached chosen leads
    rw [Expr.evaluate_index reached chosen]
    refine Exec.elementAt_array_ok_iff.mpr ⟨rfl, write.slot, leads, ?_⟩
    rw [Array.getD_eq_getD_getElem?, holds]
    rfl

namespace Exec

/-! ## The statement -/

/-- An assignment through indices hits exactly one slot. If neither the indices nor the new value call
anything, the statement succeeds from a machine without dangling references if and only if the variable
is visible and not constant, all expressions can be evaluated, the indices lead from the variable through
arrays to a slot that exists, and the value conforms to the type that is expected there. Then the slot to
which they led before the statement holds the value; all other slots, the lengths of all arrays and all
variables are as they were; and wherever the array is reached, the new value is read from it. -/
theorem indexed_assignment_hits_one_slot (script : Script) (verbosity : Nat) (machine : Machine)
    (grounded : machine.Grounded) {destination : Destination} {value : Phrase} {first last : Nat}
    (written : Assignment.IsWritten ⟨destination, .replaced value⟩) (indexed : destination.places ≠ [])
    (free : ∀ tree ∈ destination.indices, tree.CallFree True) (freeValue : value.tree.CallFree True)
    (shown : script.Shows first last (Assignment.tokens ⟨destination, .replaced value⟩))
    (ends : value.EndsBefore (script.kindAt last)) :
    ((∃ final, Settles (statement script verbosity) { machine with cursor := first }
        (some (.ok .normal final))) ↔ Nonempty (SlotWrite script verbosity machine destination value)) ∧
      ∀ (write : SlotWrite script verbosity machine destination value) (final : Machine),
        Settles (statement script verbosity) { machine with cursor := first }
          (some (.ok .normal final)) → write.Hits final := by
  have complete : Change.EndsBefore (script.kindAt last) (.replaced value) := by
    rintro _ ⟨⟩
    exact ends
  obtain ⟨outcome, twin, settles, performed, related⟩ :=
    statement_assigns verbosity written shown complete machine
  have carried (write : SlotWrite script verbosity machine destination value) : ∃ final,
      outcome = some (.ok .normal final) ∧ final.scopes = write.done.scopes ∧
        final.heap = write.done.heap := by
    obtain ⟨other, scopes, heap⟩ := write.counted free freeValue (machine.steps + 1)
    obtain rfl := performed.unique (other.performs ⟨grounded.bindings, grounded.heap⟩ free freeValue)
    cases related with
    | some outcomes => cases outcomes with
      | succeeded normal apart =>
          obtain ⟨_, _, rfl⟩ := apart
          subst normal
          exact ⟨_, rfl, scopes, heap⟩
      | early allowed => exact allowed.elim
  refine ⟨⟨fun ⟨final, succeeded⟩ => ?_, fun ⟨write⟩ => ?_⟩, fun write final succeeded => ?_⟩
  · obtain rfl := settles.unique succeeded
    cases related with
    | some outcomes => cases outcomes with
      | succeeded _ _ =>
          obtain ⟨_, stored⟩ := performed.exists_eq
          exact exists_slotWrite grounded indexed free freeValue stored
  · obtain ⟨final, rfl, -⟩ := carried write
    exact ⟨final, settles⟩
  · obtain ⟨same, known, scopes, heap⟩ := carried write
    obtain rfl := settles.unique succeeded
    cases known
    exact write.hits free freeValue scopes heap

/-- An array that is known to one variable, and as an element to another through which it is written. The
indices and the value read it through the first. -/
theorem indexed_assignment_hits_one_slot_of_alias :
    let script := Script.ofSource
      "y: number[] = [1, 5] x: number[][] = [y] x[0][y[0]] = y[1] + 1".toList
    let element (place : String) := Expr.index (.named false "y") (.number place)
    let target : Destination := ⟨"x", [(Expr.number "0").phrase, (element "0").phrase]⟩
    let value := (Expr.binary .add (element "1") (.number "1")).phrase
    let machine := finalOf (program script (evaluator script 0 20) 20 .initial)
    let after := finalOf (statement script 0 20 { machine with cursor := 16 })
    (statement script 0 20 { machine with cursor := 16 } = .ok .normal after ∧
      machine.heap.items 0 = #[.number .one, .number ⟨false, 6, 0⟩] ∧
      after.heap.items 0 = #[.number .one, .number ⟨false, 7, 0⟩]) ∧
    ((∃ final, Settles (statement script 0) { machine with cursor := 16 } (some (.ok .normal final))) ↔
        Nonempty (SlotWrite script 0 machine target value)) ∧
      ∀ (write : SlotWrite script 0 machine target value) (final : Machine),
        Settles (statement script 0) { machine with cursor := 16 } (some (.ok .normal final)) →
          write.Hits final := by
  intro script element target value machine after
  have ran : program script (evaluator script 0 20) 20 .initial = .ok () machine := by decide +kernel
  have standing (tree : Expr) : Written 0 tree.phrase :=
    tree.written.loosened tree.level_le (Nat.zero_le _)
  have written : Assignment.IsWritten ⟨target, .replaced value⟩ := by
    refine ⟨?_, ?_⟩
    · intro phrase member
      obtain rfl | rfl : phrase = (Expr.number "0").phrase ∨ phrase = (element "0").phrase := by
        simpa [target] using member
      · exact standing _
      · exact standing _
    · rintro _ ⟨⟩
      exact standing _
  have elements (place : String) : (element place).CallFree True :=
    .index (.named false "y") (.number place)
  have free : ∀ tree ∈ target.indices, tree.CallFree True := by
    intro tree member
    obtain rfl | rfl : tree = Expr.number "0" ∨ tree = element "0" := by
      simpa [Destination.indices, target, Expr.phrase] using member
    · exact .number "0"
    · exact elements "0"
  obtain ⟨shown, ends⟩ : script.Shows 16 33 (Assignment.tokens ⟨target, .replaced value⟩) ∧
      value.EndsBefore (script.kindAt 33) := by decide +kernel
  refine ⟨by decide +kernel, ?_⟩
  exact indexed_assignment_hits_one_slot script 0 machine (grounded_at_end ran) written
    (List.cons_ne_nil _ _) free (.binary .add (elements "1") (.number "1")) shown ends

end Exec

end Onepass
