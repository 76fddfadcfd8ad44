import Onepass.Proofs.Typing.Following

/-! # Expressions keep a machine sound

The calls in an expression may execute any statement. As long as these keep the machine sound, so
does the expression, and its value refers to arrays that exist.
-/

set_option autoImplicit false

namespace Onepass

/-- The parts of a construct are followed, and those that are followed keep the control state. -/
structure Evaluator.Followed (left : Evaluator) (typing : Prop) (alarm : Failure) (right : Evaluator) :
    Prop where
  expression : ∀ machine, Exec.Safe typing alarm left.expression right.expression Value.Within machine
  statement : ∀ machine, Exec.Safe typing alarm left.statement right.statement Exec.anything machine
  control : left.KeepsControl

theorem Machine.Sound.item_within {typing : Prop} {machine : Machine} (sound : machine.Sound typing)
    (address : Address) (place : Nat) :
    ((machine.heap.items address).getD place .null).Within machine.heap := by
  rw [Array.getD_eq_getD_getElem?]
  cases found : (machine.heap.items address)[place]? with
  | none => exact Value.within_of_tag (by simp [Value.tag])
  | some element => exact sound.closed address element (Array.mem_of_getElem? found)

namespace Exec

variable {typing : Prop} {alarm : Failure} {machine final : Machine} {value : Value}

/-! ## Values that are looked up or computed -/

theorem located_ok {α : Type} {position : Position} {result : Except Fault α} {value : α}
    (succeeded : located position result machine = .ok value final) : result = .ok value := by
  cases result with
  | ok found =>
      obtain ⟨rfl, rfl⟩ := pure_ok succeeded
      rfl
  | error fault => cases fault <;> exact absurd succeeded throw_ne_ok

theorem applyBinary_within {token : Token} {operator : BinaryOperator} {left right : Value}
    {heap : Heap} (succeeded : applyBinary token operator left right machine = .ok value final) :
    value.Within heap :=
  Value.within_of_tag (Heap.binary_tag (located_ok (get_bind_ok succeeded)))

theorem applyUnary_within {token : Token} {operator : UnaryOperator} {operand : Value} {heap : Heap}
    (succeeded : applyUnary token operator operand machine = .ok value final) :
    value.Within heap := by
  have computed := located_ok succeeded
  refine Value.within_of_tag ?_
  unfold UnaryOperator.apply at computed
  split at computed <;> cases computed <;> simp [Value.tag]

theorem valueOf_within {name : Token} (sound : machine.Sound typing)
    (succeeded : valueOf name machine = .ok value final) : value.Within machine.heap := by
  obtain ⟨binding, middle, looked, rest⟩ := bind_ok succeeded
  obtain ⟨found, rfl⟩ := bindingOf_ok looked
  obtain ⟨rfl, rfl⟩ := pure_ok rest
  exact (sound.fitting binding (Scopes.has_of_lookup found)).within

theorem elementAt_within {container index : Value} {token : Token} (sound : machine.Sound typing)
    (succeeded : elementAt container index token machine = .ok value final) :
    value.Within machine.heap := by
  unfold elementAt at succeeded
  split at succeeded
  · obtain ⟨place, middle, found, rest⟩ := bind_ok (get_bind_ok succeeded)
    obtain rfl := (unchanged.placeOf _ _ _).ok found
    have finished := get_bind_ok rest
    obtain ⟨rfl, rfl⟩ := pure_ok finished
    exact sound.item_within _ place
  · obtain ⟨place, middle, found, rest⟩ := bind_ok succeeded
    obtain ⟨rfl, rfl⟩ := pure_ok rest
    exact Value.within_of_tag (by simp [Value.tag])
  · exact absurd succeeded bind_refuse_ne_ok

theorem lengthOf_within {container : Value} {member : Token} {heap : Heap}
    (succeeded : lengthOf container member machine = .ok value final) : value.Within heap := by
  unfold lengthOf at succeeded
  refine Value.within_of_tag ?_
  split at succeeded
  · have finished := get_bind_ok succeeded
    obtain ⟨rfl, rfl⟩ := pure_ok finished
    simp [Value.tag]
  · obtain ⟨rfl, rfl⟩ := pure_ok succeeded
    simp [Value.tag]
  · exact absurd succeeded bind_refuse_ne_ok

theorem testOrConvert_within {test : Bool} {target : Token} {operand : Value}
    (within : operand.Within machine.heap)
    (succeeded : testOrConvert test operand target machine = .ok value final) :
    value.Within machine.heap := by
  unfold testOrConvert at succeeded
  split at succeeded
  · have looked := get_bind_ok succeeded
    cases answer : machine.heap.isType? operand target.word with
    | none =>
        rw [answer] at looked
        exact absurd looked refuse_ne_ok
    | some found =>
        rw [answer] at looked
        obtain ⟨rfl, rfl⟩ := pure_ok looked
        exact Value.within_of_tag (by simp [Value.tag])
  · rcases Heap.convert_ok (located_ok (get_bind_ok succeeded)) with rfl | plain
    · exact within
    · exact Value.within_of_tag plain

theorem conforms_ok {type : DeclaredType} {answer : Bool}
    (succeeded : conforms value type machine = .ok answer final) :
    answer = machine.heap.conforms value type ∧ final = machine := by
  have finished := get_bind_ok succeeded
  obtain ⟨rfl, rfl⟩ := pure_ok finished
  exact ⟨rfl, rfl⟩

/-! ## Lists and array literals -/

variable (script : Script)

theorem separated_safe {α : Type} (closing : Symbol) {item other : Exec α} {good : α → Heap → Prop}
    (safe : ∀ machine, Safe typing alarm item other good machine)
    (lasting : ∀ result first last, good result first → first.Grown last → good result last)
    (fuel : Nat) (machine : Machine) :
    Safe typing alarm (separated script closing item fuel) (separated script closing other fuel)
      (fun results heap => ∀ result ∈ results, good result heap) machine := by
  induction fuel generalizing machine with
  | zero => exact .throw _
  | succ fuel ih =>
      unfold separated
      refine .after (storeMoving.currentKind script) fun found _ _ _ => ?_
      split
      · exact .pure fun _ => by simp
      · refine (safe _).bind fun first middle _ _ known => ?_
        refine .after (storeMoving.accept script _) fun more behind _ same => ?_
        rw [← same] at known
        split
        · refine (ih behind).bind fun rest last _ grown others => .pure fun _ => ?_
          rintro result (_ | ⟨_, later⟩)
          · exact lasting _ _ _ known grown
          · exact others result later
        · refine .pure fun _ => ?_
          simpa using known

/-- A value is read that is to conform to a type. Only if it does, the machine has to be sound: the
elements of a literal for a declared type are checked one by one, and a later one may call a function
that spoils an earlier one. -/
def Tentative (typing : Prop) (alarm : Failure) (left right : Exec Value) (type : DeclaredType)
    (machine : Machine) : Prop :=
  machine.Sound typing → Follows alarm left right (fun value final =>
    (final.heap.conforms value type = true → final.Sound typing) ∧
      machine.heap.Grown final.heap ∧ value.Within final.heap) machine

theorem Safe.tentative {left right : Exec Value} {type : DeclaredType}
    (safe : Safe typing alarm left right Value.Within machine) :
    Tentative typing alarm left right type machine :=
  fun sound => (safe sound).weaken fun _ _ _ ⟨kept, grown, within⟩ => ⟨fun _ => kept, grown, within⟩

/-- Once the value was found to conform, the machine is sound. -/
theorem Tentative.checked {α : Type} {left right : Exec Value} {type : DeclaredType}
    {accepted other : Value → Exec α} {rejected : Value → Exec α} {good : α → Heap → Prop}
    (reading : Tentative typing alarm left right type machine)
    (rest : ∀ value middle, left machine = .ok value middle → machine.heap.Grown middle.heap →
      value.Within middle.heap → middle.heap.conforms value type = true →
        Safe typing alarm (accepted value) (other value) good middle)
    (stops : ∀ value middle result final, rejected value middle ≠ .ok result final) :
    Safe typing alarm (do
        let value ← left
        if ← conforms value type then accepted value else rejected value)
      (do
        let value ← right
        if ← conforms value type then other value else rejected value) good machine := by
  intro sound
  refine (reading sound).bind fun value middle ran ⟨settled, grown, within⟩ => ?_
  refine .bind (.same fun _ _ => conforms_ok) fun answer same _ looked => ?_
  obtain ⟨rfl, rfl⟩ := looked
  split
  case _ conforming =>
    refine (rest value same ran grown within conforming (settled conforming)).weaken ?_
    exact fun result final _ ⟨done, more, known⟩ => ⟨done, grown.trans more, known⟩
  case _ => exact .same fun result final refused => absurd refused (stops _ _ _ _)

theorem Safe.thenTentative {α : Type} {left right : Exec α} {next other : α → Exec Value}
    {good : α → Heap → Prop} {type : DeclaredType} (first : Safe typing alarm left right good machine)
    (rest : ∀ value middle, machine.heap.Grown middle.heap → good value middle.heap →
      Tentative typing alarm (next value) (other value) type middle) :
    Tentative typing alarm (left >>= next) (right >>= other) type machine := by
  intro sound
  refine (first sound).bind fun value middle _ ⟨kept, grown, known⟩ => ?_
  refine (rest value middle grown known kept).weaken fun result final _ ⟨settled, more, within⟩ => ?_
  exact ⟨settled, grown.trans more, within⟩

theorem allocate_ok {items : List Value} {type : Option DeclaredType}
    (succeeded : allocate items type machine = .ok value final) :
    value = .array machine.heap.size ∧
      final = { machine with heap := (machine.heap.allocate items.toArray type).1 } := by
  cases succeeded
  exact ⟨rfl, rfl⟩

theorem within_allocate (heap : Heap) (items : Array Value) (type : Option DeclaredType) :
    (Value.array heap.size).Within (heap.allocate items type).1 := by
  rintro address same
  cases same
  simp

/-- A new array for a declared type leaves a sound machine if it conforms to its type now. -/
theorem allocate_tentative {items : List Value} (element : DeclaredType)
    (within : ∀ item ∈ items, item.Within machine.heap) :
    Tentative typing alarm (allocate items (some element)) (allocate items (some element)) element.arrayOf
      machine := by
  intro sound
  refine .same fun value final ran => ?_
  obtain ⟨rfl, rfl⟩ := allocate_ok ran
  refine ⟨fun conforming => ?_, Heap.grown_allocate _ _ _, within_allocate _ _ _⟩
  have inside : ∀ item ∈ items.toArray, item.Within machine.heap := by simpa using within
  refine sound.allocate inside fun _ carried same item member => ?_
  cases same
  have elements := (Heap.conforms_arrayOf element _).mp conforming
  rw [Heap.items_allocate, if_pos rfl] at elements
  have now := elements item member
  unfold Heap.conforms at now ⊢
  rwa [Heap.conformsTo_allocate sound.closed _ _ (inside item member)] at now

theorem checkedArray_tentative {element : DeclaredType} {item other : Exec Value}
    (reading : ∀ machine, Tentative typing alarm item other element machine) (fuel : Nat)
    (machine : Machine) :
    Tentative typing alarm (checkedArray script element item fuel) (checkedArray script element other fuel)
      element.arrayOf machine := by
  have checked : ∀ machine, Safe typing alarm (checkedArray.checked script element item)
      (checkedArray.checked script element other) Value.Within machine := by
    intro machine
    refine .after (storeMoving.current script) fun token _ _ _ => ?_
    exact (reading _).checked (fun value middle _ _ within _ => .pure fun _ => within)
      fun _ _ _ _ => bind_refuse_ne_ok
  refine (Safe.idle (storeMoving.expectSymbol script _)).thenTentative fun _ _ _ _ => ?_
  refine (separated_safe script _ checked (fun _ _ _ => Value.Within.grown) fuel _).thenTentative ?_
  intro items middle _ within
  refine (Safe.idle (storeMoving.expectSymbol script _)).thenTentative fun _ behind grown _ => ?_
  exact allocate_tentative element fun item member => (within item member).grown grown

variable {left right : Evaluator}

theorem declaredArray_tentative (followed : left.Followed typing alarm right) (fuel : Nat) (base : String)
    (dimensions : Nat) (machine : Machine) :
    Tentative typing alarm (declaredArray script left fuel base dimensions)
      (declaredArray script right fuel base dimensions) ⟨base, dimensions + 1⟩ machine := by
  induction dimensions generalizing machine with
  | zero => exact checkedArray_tentative script (fun _ => (followed.expression _).tentative) fuel _
  | succ dimensions ih =>
      refine checkedArray_tentative script (fun machine => ?_) fuel _
      refine (Safe.idle (storeMoving.currentKind script)).thenTentative fun _ middle _ _ => ?_
      split
      · exact ih middle
      · exact (followed.expression middle).tentative

theorem freeArray_safe (followed : left.Followed typing alarm right) (fuel : Nat) (machine : Machine) :
    Safe typing alarm (freeArray script left fuel) (freeArray script right fuel) Value.Within machine := by
  refine .after (storeMoving.expectSymbol script _) fun _ _ _ _ => ?_
  refine (separated_safe script _ followed.expression (fun _ _ _ => Value.Within.grown) fuel _).bind
    fun items _ _ _ within => ?_
  refine .after (storeMoving.expectSymbol script _) fun _ behind _ same => ?_
  rw [← same] at within
  refine .reading ?_
  cases shared : sharedType (items.map behind.heap.describe) with
  | error cause => exact .after (storeMoving.current script) fun _ _ _ _ => .refuse _ _
  | ok element =>
      intro sound
      refine .same fun value final ran => ?_
      obtain ⟨rfl, rfl⟩ := allocate_ok ran
      have inside : ∀ item ∈ items.toArray, item.Within behind.heap := by simpa using within
      refine ⟨sound.allocate inside fun matters carried same item member => ?_, Heap.grown_allocate _ _ _,
        within_allocate _ _ _⟩
      -- Each element conforms to what it is described as, which is the shared type.
      subst same
      have described := sharedType_ok shared _ (List.mem_map_of_mem (List.mem_toArray.mp member))
      rw [← described]
      exact Heap.conforms_describe (sound.typed matters) item

/-! ## Operands and operators -/

theorem valueOf_safe (name : Token) (machine : Machine) :
    Safe typing alarm (valueOf name) (valueOf name) Value.Within machine :=
  .known (storeMoving.valueOf name) fun _ _ sound ran => valueOf_within sound ran

theorem applyBinary_safe (token : Token) (operator : BinaryOperator) (first second : Value)
    (machine : Machine) :
    Safe typing alarm (applyBinary token operator first second) (applyBinary token operator first second)
      Value.Within machine :=
  .known (storeMoving.applyBinary token operator first second) fun _ _ _ ran => applyBinary_within ran

/-- A literal that was read is no array. -/
theorem literal_safe {α : Type} {action : Exec α} {wrap : α → Value}
    (keeps : Keeps Machine.SameStore action) (plain : ∀ found, (wrap found).tag ≠ .array)
    (machine : Machine) :
    Safe typing alarm (action >>= fun found => pure (wrap found))
      (action >>= fun found => pure (wrap found)) Value.Within machine :=
  .after keeps fun found _ _ _ => .pure fun _ => Value.within_of_tag (plain found)

theorem primary_safe (followed : left.Followed typing alarm right) {call other : Exec Value}
    (calling : ∀ machine, Safe typing alarm call other Value.Within machine) (fuel : Nat)
    (machine : Machine) :
    Safe typing alarm (primary script left call fuel) (primary script right other fuel) Value.Within
      machine := by
  refine .after (storeMoving.current script) fun token same _ _ => ?_
  split
  · exact literal_safe (storeMoving.advance script) (by simp [Value.tag]) _
  · exact literal_safe (storeMoving.stringLiteral script fuel) (by simp [Value.tag]) _
  · exact literal_safe (storeMoving.stringLiteral script fuel) (by simp [Value.tag]) _
  · refine .after (storeMoving.advance script) fun _ _ _ _ => ?_
    split
    · exact .refuse _ _
    · exact .pure fun _ => Value.within_of_tag (by simp [Value.tag])
  · exact literal_safe (storeMoving.advance script) (by simp [Value.tag]) _
  · exact literal_safe (storeMoving.advance script) (by simp [Value.tag]) _
  · refine .after (storeMoving.advance script) fun _ _ _ _ => ?_
    refine (followed.expression _).bind fun value _ _ _ within => ?_
    refine .after (storeMoving.expectSymbol script _) fun _ _ _ same => .pure fun _ => ?_
    rwa [same]
  · exact freeArray_safe script followed fuel same
  · refine .after (storeMoving.followingKind script) fun following _ _ _ => ?_
    split
    · exact calling _
    · exact .after (storeMoving.advance script) fun _ _ _ _ => valueOf_safe token _
  · refine .after (storeMoving.advance script) fun _ _ _ _ => ?_
    exact .after (storeMoving.expect script _) fun name _ _ _ => valueOf_safe name _
  · exact .refuse _ _

theorem suffixes_safe (followed : left.Followed typing alarm right) (fuel : Nat) {value : Value}
    {machine : Machine} (within : value.Within machine.heap) :
    Safe typing alarm (suffixes script left fuel value) (suffixes script right fuel value) Value.Within
      machine := by
  induction fuel generalizing value machine with
  | zero => exact .throw _
  | succ fuel ih =>
      unfold suffixes
      refine .after (storeMoving.currentKind script) fun found _ _ same => ?_
      rw [← same] at within
      split
      · refine .after (storeMoving.advance script) fun _ _ _ _ => ?_
        refine .after (storeMoving.current script) fun token _ _ _ => ?_
        refine (followed.expression _).bind fun index _ _ _ _ => ?_
        refine .after (storeMoving.expectSymbol script _) fun _ _ _ _ => ?_
        refine .bind (.known (storeMoving.elementAt value index token) fun _ _ => elementAt_within)
          fun element _ _ _ inside => ?_
        exact ih inside
      · refine .after (storeMoving.advance script) fun _ _ _ _ => ?_
        refine .after (storeMoving.expect script _) fun member _ _ _ => ?_
        split
        · exact .refuse _ _
        · refine .bind (.known (storeMoving.lengthOf value member) fun _ _ _ => lengthOf_within)
            fun length _ _ _ inside => ?_
          exact ih inside
      · exact .pure fun _ => within

theorem unary_safe (followed : left.Followed typing alarm right) {call other : Exec Value}
    (calling : ∀ machine, Safe typing alarm call other Value.Within machine) (fuel : Nat)
    (machine : Machine) :
    Safe typing alarm (unary script left call fuel) (unary script right other fuel) Value.Within
      machine := by
  induction fuel generalizing machine with
  | zero => exact .throw _
  | succ fuel ih =>
      unfold unary
      refine .after (storeMoving.current script) fun token _ _ _ => ?_
      split
      · refine .after (storeMoving.advance script) fun _ _ _ _ => ?_
        refine (ih _).bind fun operand _ _ _ _ => ?_
        exact .known (storeMoving.located _ _) fun _ _ _ => applyUnary_within
      · refine (primary_safe script followed calling fuel _).bind fun operand _ _ _ within => ?_
        exact suffixes_safe script followed fuel within

theorem chain_safe (rank : Rank) {operand other : Exec Value}
    (safe : ∀ machine, Safe typing alarm operand other Value.Within machine) (fuel : Nat) {first : Value}
    {machine : Machine} (within : first.Within machine.heap) :
    Safe typing alarm (chain script rank operand fuel first) (chain script rank other fuel first)
      Value.Within machine := by
  induction fuel generalizing first machine with
  | zero => exact .throw _
  | succ fuel ih =>
      unfold chain
      refine .after (storeMoving.current script) fun token _ _ same => ?_
      split
      · refine .after (storeMoving.advance script) fun _ _ _ _ => ?_
        refine (safe _).bind fun second _ _ _ _ => ?_
        refine (applyBinary_safe token _ first second _).bind fun result _ _ _ inside => ?_
        exact ih inside
      · refine .pure fun _ => ?_
        rwa [same]

theorem ranked_safe (rank : Rank) {operand other : Exec Value}
    (safe : ∀ machine, Safe typing alarm operand other Value.Within machine) (fuel : Nat)
    (machine : Machine) :
    Safe typing alarm (ranked script rank operand fuel) (ranked script rank other fuel) Value.Within
      machine :=
  (safe machine).bind fun _ _ _ _ within => chain_safe script rank safe fuel within

theorem typeTests_safe (fuel : Nat) {value : Value} {machine : Machine}
    (within : value.Within machine.heap) :
    Safe typing alarm (typeTests script fuel value) (typeTests script fuel value) Value.Within machine := by
  induction fuel generalizing value machine with
  | zero => exact .throw _
  | succ fuel ih =>
      unfold typeTests
      refine .after (storeMoving.currentKind script) fun operator _ _ same => ?_
      rw [← same] at within
      split
      · refine .after (storeMoving.advance script) fun _ _ _ same => ?_
        rw [← same] at within
        refine .after (storeMoving.current script) fun target _ _ same => ?_
        rw [← same] at within
        split
        · refine .after (storeMoving.advance script) fun _ _ _ same => ?_
          rw [← same] at within
          refine .bind (.known (storeMoving.testOrConvert _ value target)
            fun _ _ _ => testOrConvert_within within) fun result _ _ _ inside => ?_
          exact ih inside
        · exact .refuse _ _
      · exact .pure fun _ => within

theorem comparison_safe (followed : left.Followed typing alarm right) {call other : Exec Value}
    (calling : ∀ machine, Safe typing alarm call other Value.Within machine) (fuel : Nat)
    (machine : Machine) :
    Safe typing alarm (comparison script left call fuel) (comparison script right other fuel) Value.Within
      machine := by
  have product := ranked_safe script .product (unary_safe script followed calling fuel) fuel
  have sum := ranked_safe script .sum product fuel
  have tested : ∀ machine, Safe typing alarm (typeTest script left call fuel)
      (typeTest script right other fuel) Value.Within machine := fun machine =>
    (sum machine).bind fun _ _ _ _ within => typeTests_safe script fuel within
  refine (tested machine).bind fun first _ _ _ within => ?_
  refine .after (storeMoving.current script) fun token _ _ same => ?_
  rw [← same] at within
  split
  · refine .after (storeMoving.advance script) fun _ _ _ _ => ?_
    refine (tested _).bind fun second _ _ _ _ => ?_
    exact applyBinary_safe token _ first second _
  · exact .pure fun _ => within

theorem disjunction_safe (followed : left.Followed typing alarm right) {call other : Exec Value}
    (calling : ∀ machine, Safe typing alarm call other Value.Within machine) (fuel : Nat)
    (machine : Machine) :
    Safe typing alarm (disjunction script left call fuel) (disjunction script right other fuel) Value.Within
      machine :=
  ranked_safe script .disjunction
    (ranked_safe script .conjunction (comparison_safe script followed calling fuel) fuel) fuel machine

end Exec

end Onepass
