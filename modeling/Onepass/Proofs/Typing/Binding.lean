import Onepass.Proofs.Typing.Expression

/-! # Calls, declarations and assignments keep a machine sound

Whatever a call or a declaration binds was checked right before, and so was what an assignment gives
to a variable. An assignment to an element is the exception: the element is checked against the type
that one variable has for it, or against the type that its array carries, and other variables and
arrays may demand more.
-/

set_option autoImplicit false

namespace Onepass

namespace Exec

variable {typing : Prop} {alarm : Failure} {machine final : Machine} {left right : Evaluator}

/-! ## Calls -/

theorem checkArguments_ok {function : String} {given : List (Parameter × Token × Value)}
    {result : Unit} (succeeded : checkArguments function given machine = .ok result final) :
    ∀ argument ∈ given, ∀ type, argument.1.type = some type →
      machine.heap.conforms argument.2.2 type = true := by
  induction given with
  | nil => simp
  | cons argument rest ih =>
      obtain ⟨parameter, token, value⟩ := argument
      unfold checkArguments at succeeded
      cases declared : parameter.type with
      | none =>
          rw [declared] at succeeded
          rintro other (_ | ⟨_, later⟩) type typed
          · rw [declared] at typed
            cases typed
          · exact ih succeeded other later type typed
      | some type =>
          simp only [declared] at succeeded
          obtain ⟨answer, same, looked, rest⟩ := bind_ok succeeded
          obtain ⟨rfl, rfl⟩ := conforms_ok looked
          split at rest
          case isFalse =>
            exact absurd rest bind_refuse_ne_ok
          case isTrue conforming =>
            rintro other (_ | ⟨_, later⟩) found typed
            · rw [declared] at typed
              cases typed
              exact conforming
            · exact ih rest other later found typed

theorem items_retagArguments (heap : Heap) (arguments : List (Parameter × Value))
    (address : Address) : (retagArguments heap arguments).items address = heap.items address := by
  induction arguments generalizing heap with
  | nil => rfl
  | cons argument rest ih =>
      refine (ih _).trans ?_
      dsimp only
      split
      · exact Heap.items_retag _ _ address
      · rfl

theorem grown_retagArguments (heap : Heap) (arguments : List (Parameter × Value)) :
    heap.Grown (retagArguments heap arguments) := by
  induction arguments generalizing heap with
  | nil => exact .refl heap
  | cons argument rest ih =>
      refine .trans ?_ (ih _)
      dsimp only
      split
      · exact Heap.grown_retag heap _ _
      · exact .refl heap

theorem sound_retagArguments (sound : machine.Sound typing) {arguments : List (Parameter × Value)}
    (fitting : ∀ argument ∈ arguments, ∀ type, argument.1.type = some type →
      machine.heap.conforms argument.2 type = true) :
    { machine with heap := retagArguments machine.heap arguments }.Sound typing := by
  induction arguments generalizing machine with
  | nil => exact sound
  | cons argument rest ih =>
      have first := fitting argument List.mem_cons_self
      have others := fun other later => fitting other (List.mem_cons_of_mem argument later)
      unfold retagArguments
      rw [List.foldl_cons]
      cases declared : argument.1.type with
      | none => exact ih sound others
      | some type =>
          refine ih (sound.retag (first type declared)) fun other later found typed => ?_
          rw [Heap.conforms_congr (Heap.items_retag argument.2 type)]
          exact others other later found typed

/-- A call begins on a sound machine if the arguments fit the parameters. -/
theorem sound_enterCall (sound : machine.Sound typing) {function : Function} {given : List Value}
    (within : ∀ value ∈ given, value.Within machine.heap)
    (fitting : ∀ argument ∈ function.parameters.zip given, ∀ type, argument.1.type = some type →
      machine.heap.conforms argument.2 type = true) :
    (enterCall function given machine).Sound typing := by
  have nothing : Value.null.Within (retagArguments machine.heap (function.parameters.zip given)) :=
    Value.within_of_tag (by simp [Value.tag])
  refine (sound_retagArguments sound fitting).rescope rfl nothing fun binding has => ?_
  rcases Scopes.has_push has with ⟨name, entry⟩ | outside
  · right
    obtain ⟨argument, member, same⟩ := List.mem_map.mp entry
    cases same
    refine ⟨?_, fun _ type declared => ?_⟩
    · exact (within _ (List.of_mem_zip member).2).grown (grown_retagArguments _ _)
    · change (retagArguments _ _).conforms _ _ = true
      rw [Heap.conforms_congr (items_retagArguments machine.heap _)]
      exact fitting argument member type declared
  · exact .inl (Scopes.has_enter outside)

theorem statementsUntil_safe {statement other : Exec Signal}
    (safe : ∀ machine, Safe typing alarm statement other anything machine) (finish fuel : Nat)
    (machine : Machine) :
    Safe typing alarm (statementsUntil statement finish fuel) (statementsUntil other finish fuel)
      anything machine := by
  induction fuel generalizing machine with
  | zero => exact .throw _
  | succ fuel ih =>
      unfold statementsUntil
      refine .reading ?_
      split
      · refine (safe machine).bind fun signal middle _ _ _ => ?_
        split
        · exact ih middle
        · exact .pure fun _ => trivial
      · exact .pure fun _ => trivial

/-- What was returned is taken from a sound machine. -/
theorem callBody_safe {statement other : Exec Signal}
    (safe : ∀ machine, Safe typing alarm statement other anything machine) (finish fuel : Nat)
    (machine : Machine) :
    Safe typing alarm (callBody statement finish fuel) (callBody other finish fuel)
      (fun ended heap => ended.2.Within heap) machine := by
  refine (statementsUntil_safe safe finish fuel machine).bind fun signal middle _ _ _ => ?_
  exact .reading (.pure fun sound => sound.returned)

theorem callResult_safe {function : Function} {name : Token} {ended : Signal × Value}
    (within : ended.2.Within machine.heap) :
    Safe typing alarm (callResult function name ended) (callResult function name ended) Value.Within
      machine := by
  refine .known (storeMoving.callResult function name ended) fun value final _ ran => ?_
  unfold callResult at ran
  split at ran
  · obtain ⟨rfl, rfl⟩ := pure_ok ran
    exact within
  · split at ran
    · obtain ⟨rfl, rfl⟩ := pure_ok ran
      exact Value.within_of_tag (by simp [Value.tag])
    · exact absurd ran refuse_ne_ok

theorem invoke_safe (followed : left.Followed typing alarm right) {function : Function}
    {given : List Value} (within : ∀ value ∈ given, value.Within machine.heap)
    (fitting : ∀ argument ∈ function.parameters.zip given, ∀ type, argument.1.type = some type →
      machine.heap.conforms argument.2 type = true) (name : Token) (fuel : Nat) :
    Safe typing alarm (invoke left function given name fuel) (invoke right function given name fuel)
      Value.Within machine := by
  have performed : Safe typing alarm
      (modify (enterCall function given) >>= fun _ =>
        ensuring (leaveCall machine.cursor machine.loopDepth)
          (callBody left.statement function.finish fuel))
      (modify (enterCall function given) >>= fun _ =>
        ensuring (leaveCall machine.cursor machine.loopDepth)
          (callBody right.statement function.finish fuel))
      (fun ended heap => ended.2.Within heap) machine :=
    .enclosed (fun sound => sound_enterCall sound within fitting) (grown_retagArguments _ _)
      (callBody_safe followed.statement function.finish fuel _)
      (fun final kept => kept.rescope rfl kept.returned fun _ has => .inl (Scopes.has_leave has)) fun _ => rfl
  exact performed.bind fun _ _ _ _ known => callResult_safe known

variable (script : Script)

theorem call_safe (followed : left.Followed typing alarm right) (fuel : Nat) (machine : Machine) :
    Safe typing alarm (call script left fuel) (call script right fuel) Value.Within machine := by
  have argument : ∀ machine, Safe typing alarm
      (do let token ← current script; return (token, ← left.expression))
      (do let token ← current script; return (token, ← right.expression))
      (fun given heap => given.2.Within heap) machine := by
    intro machine
    refine .after (storeMoving.current script) fun token _ _ _ => ?_
    exact (followed.expression _).bind fun _ _ _ _ within => .pure fun _ => within
  refine .after (storeMoving.expect script _) fun name _ _ _ => ?_
  refine .after (storeMoving.expectSymbol script _) fun _ _ _ _ => ?_
  refine (separated_safe script _ argument (fun _ _ _ => Value.Within.grown) fuel _).bind
    fun given _ _ _ within => ?_
  refine .after (storeMoving.expectSymbol script _) fun _ behind _ same => ?_
  rw [← same] at within
  refine .reading ?_
  split
  · exact .refuse _ _
  case _ function _ =>
    split
    · exact .refuse _ _
    · refine .after (storeMoving.checkArguments _ _) fun _ checked ran same => ?_
      have fitting := checkArguments_ok ran
      rw [← same] at within fitting
      refine .reading ?_
      split
      · exact .refuse _ _
      · refine invoke_safe followed (fun value member => ?_) (fun argument member => ?_) name fuel
        · obtain ⟨argument, among, rfl⟩ := List.mem_map.mp member
          exact within argument among
        · rw [List.zip_map_right] at member
          obtain ⟨checked, among, rfl⟩ := List.mem_map.mp member
          exact fitting checked among

/-! ## Declarations -/

theorem checkAssigned_ok {value : Value} {type : DeclaredType} {position : Position} {result : Unit}
    (succeeded : checkAssigned value type position machine = .ok result final) :
    machine.heap.conforms value type = true ∧ final = machine := by
  obtain ⟨answer, same, looked, rest⟩ := bind_ok succeeded
  obtain ⟨rfl, rfl⟩ := conforms_ok looked
  split at rest
  case isTrue conforming =>
    obtain ⟨-, rfl⟩ := pure_ok rest
    exact ⟨conforming, rfl⟩
  case isFalse =>
    exact absurd rest bind_refuse_ne_ok

/-- A value that is adopted was checked, and then retagged. -/
theorem adopt_ok {value : Value} {type : DeclaredType} {position : Position} {result : Unit}
    (succeeded : adopt value (some type) position machine = .ok result final) :
    machine.heap.conforms value type = true ∧
      final = { machine with heap := machine.heap.retag value type } := by
  obtain ⟨_, middle, checked, rest⟩ := bind_ok succeeded
  obtain ⟨conforming, rfl⟩ := checkAssigned_ok checked
  cases rest
  exact ⟨conforming, rfl⟩

theorem adopt_safe (value : Value) (expected : Option DeclaredType) (position : Position)
    (machine : Machine) :
    Safe typing alarm (adopt value expected position) (adopt value expected position) anything machine := by
  cases expected with
  | none => exact .pure fun _ => trivial
  | some type =>
      intro sound
      refine .same fun _ final ran => ?_
      obtain ⟨conforming, rfl⟩ := adopt_ok ran
      exact ⟨sound.retag conforming, Heap.grown_retag _ _ _, trivial⟩

theorem initializer_tentative (followed : left.Followed typing alarm right) (type : DeclaredType)
    (fuel : Nat) (machine : Machine) :
    Tentative typing alarm (initializer script left type fuel) (initializer script right type fuel) type
      machine := by
  obtain ⟨base, dimensions⟩ := type
  cases dimensions with
  | zero => exact (followed.expression machine).tentative
  | succ dimensions =>
      refine (Safe.idle (storeMoving.currentKind script)).thenTentative fun _ middle _ _ => ?_
      split
      · exact declaredArray_tentative script followed fuel base dimensions middle
      · exact (followed.expression middle).tentative

theorem refuse_stops {α : Type} {cause : Cause} {position : Position} (result : α)
    (final : Machine) : (refuse cause position : Exec α) machine ≠ .ok result final :=
  refuse_ne_ok

theorem declaredVariable_safe (followed : left.Followed typing alarm right) (fuel : Nat)
    (machine : Machine) :
    Safe typing alarm (declaredVariable script left fuel) (declaredVariable script right fuel)
      (fun declared heap => heap.Fits typing declared.2) machine := by
  refine .after (storeMoving.accept script _) fun constant _ _ _ => ?_
  refine .after (storeMoving.expect script _) fun name _ _ _ => ?_
  refine .reading (.guarded _ (storeMoving.refuse _ _) refuse_stops ?_)
  refine .after (storeMoving.expectSymbol script _) fun _ _ _ _ => ?_
  refine .after (storeMoving.readType script) fun type _ _ _ => ?_
  refine .guarded _ (storeMoving.refuse _ _) refuse_stops ?_
  refine .after (storeMoving.expectSymbol script _) fun _ _ _ _ => ?_
  refine .after (storeMoving.current script) fun start before _ _ => ?_
  intro sound
  refine (initializer_tentative script followed type fuel before sound).bind
    fun value middle _ ⟨settled, grown, within⟩ => ?_
  refine .bind (.same fun _ _ => adopt_ok) fun _ after _ ⟨conforming, same⟩ => ?_
  subst same
  refine .same fun declared final ran => ?_
  obtain ⟨rfl, rfl⟩ := pure_ok ran
  have retagged := Heap.grown_retag middle.heap value type
  refine ⟨(settled conforming).retag conforming, grown.trans retagged, within.grown retagged, ?_⟩
  rintro - _ same
  cases same
  exact (Heap.conforms_congr (Heap.items_retag value type) value type).trans conforming

theorem variableDeclaration_safe (followed : left.Followed typing alarm right) (fuel : Nat)
    (machine : Machine) :
    Safe typing alarm (variableDeclaration script left fuel) (variableDeclaration script right fuel)
      anything machine := by
  refine (declaredVariable_safe script followed fuel machine).bind
    fun declared middle _ _ fits sound => ?_
  refine .same fun _ final ran => ?_
  cases ran
  refine ⟨sound.rescope rfl sound.returned fun binding has => ?_, .refl _, trivial⟩
  rcases Scopes.has_declare has with rfl | old
  · exact .inr fits
  · exact .inl old

/-! ## Assignments -/

theorem placeOf_lt {length place : Nat} {index : Value} {token : Token}
    (succeeded : placeOf length index token machine = .ok place final) : place < length := by
  unfold placeOf at succeeded
  split at succeeded
  · split at succeeded
    · exact absurd succeeded refuse_ne_ok
    · split at succeeded
      case isTrue inside =>
        obtain ⟨rfl, rfl⟩ := pure_ok succeeded
        simp only [Bool.and_eq_true, decide_eq_true_eq] at inside
        omega
      case isFalse =>
        split at succeeded
        · cases succeeded
        · exact absurd succeeded refuse_ne_ok
  · exact absurd succeeded bind_refuse_ne_ok

/-- The element that is selected exists. -/
theorem selectElement_lt {name : Token} {container : Value} {selected : List (Token × Value)}
    {address : Address} {place : Nat}
    (succeeded : selectElement name container selected machine =
      .ok (.element address place) final) : place < (machine.heap.items address).size := by
  induction selected generalizing container machine with
  | nil => cases succeeded
  | cons index rest ih =>
      cases rest with
      | nil =>
          unfold selectElement at succeeded
          split at succeeded
          · obtain ⟨found, middle, placed, rest⟩ := bind_ok (get_bind_ok succeeded)
            cases rest
            exact placeOf_lt placed
          · exact absurd succeeded refuse_ne_ok
      | cons next others =>
          obtain ⟨element, middle, found, rest⟩ := bind_ok succeeded
          obtain rfl := (unchanged.elementAt _ _ _).ok found
          exact ih rest

theorem indices_safe (followed : left.Followed typing alarm right) (fuel : Nat) (machine : Machine) :
    Safe typing alarm (indices script left fuel) (indices script right fuel) anything machine := by
  induction fuel generalizing machine with
  | zero => exact .throw _
  | succ fuel ih =>
      unfold indices
      refine .after (storeMoving.currentKind script) fun found _ _ _ => ?_
      split
      · refine .after (storeMoving.advance script) fun _ _ _ _ => ?_
        refine .after (storeMoving.current script) fun token _ _ _ => ?_
        refine (followed.expression _).bind fun index _ _ _ _ => ?_
        refine .after (storeMoving.expectSymbol script _) fun _ _ _ _ => ?_
        exact (ih _).bind fun _ _ _ _ _ => .pure fun _ => trivial
      · exact .pure fun _ => trivial

theorem assignedValue_safe (followed : left.Followed typing alarm right) (operator : Token) (old : Value)
    (machine : Machine) :
    Safe typing alarm (assignedValue left operator old) (assignedValue right operator old) Value.Within
      machine := by
  unfold assignedValue
  split
  · exact applyBinary_safe _ _ _ _ _
  · exact applyBinary_safe _ _ _ _ _
  · split
    · exact (followed.expression _).bind fun operand _ _ _ _ => applyBinary_safe _ _ _ _ _
    · exact followed.expression _
  · exact followed.expression _

/-- What an assignment is about to store refers to arrays that exist, and so does its target. -/
theorem preparedAssignment_safe (followed : left.Followed typing alarm right) (fuel : Nat)
    (machine : Machine) :
    Safe typing alarm (preparedAssignment script left fuel) (preparedAssignment script right fuel)
      (fun prepared heap => prepared.2.2.Within heap ∧
        ∀ address place, prepared.2.1 = .element address place → place < (heap.items address).size)
      machine := by
  refine .after (storeMoving.advance script) fun name _ _ _ => ?_
  refine .after (storeMoving.bindingOf name) fun _ _ _ _ => ?_
  refine (indices_safe script followed fuel _).bind fun selected _ _ _ _ => ?_
  refine .after (storeMoving.current script) fun operator _ _ _ => ?_
  refine .guarded _ (storeMoving.refuse _ _) refuse_stops ?_
  refine .after (storeMoving.advance script) fun _ _ _ _ => ?_
  refine .after (storeMoving.bindingOf name) fun binding found _ _ => ?_
  refine .guarded _ (storeMoving.refuse _ _) refuse_stops ?_
  refine .after (storeMoving.selectElement name _ selected) fun target middle selection same => ?_
  have inside : ∀ address place, target = .element address place →
      place < (middle.heap.items address).size := by
    rintro address place rfl
    rw [same]
    exact selectElement_lt selection
  refine .after (storeMoving.current script) fun start _ _ same => ?_
  rw [← same] at inside
  refine .after (storeMoving.targetValue binding target) fun old _ _ same => ?_
  rw [← same] at inside
  refine (assignedValue_safe followed operator old _).bind fun value _ _ grown within => ?_
  refine .reading ?_
  refine (adopt_safe value _ _ _).bind fun _ _ _ retagged _ => .pure fun _ => ?_
  refine ⟨within.grown retagged, fun address place element => ?_⟩
  exact Nat.lt_of_lt_of_le (inside address place element) ((grown.trans retagged).items address)

/-- What is stored in a variable conforms to its type, which the evaluation of the value cannot have
changed. -/
theorem preparedAssignment_conforms (keeps : left.KeepsControl) {fuel : Nat} {name : Token}
    {value : Value} (prepared : preparedAssignment script left fuel machine =
      .ok (name, .named, value) final) :
    ∀ binding, final.scopes.lookup? name.word = some binding →
      ∀ type, binding.type = some type → final.heap.conforms value type = true := by
  obtain ⟨read, _, -, rest⟩ := bind_ok prepared
  obtain ⟨_, _, -, rest⟩ := bind_ok rest
  obtain ⟨selected, _, -, rest⟩ := bind_ok rest
  obtain ⟨-, rest⟩ := guarded_ok (current_bind_ok rest)
  obtain ⟨_, _, -, rest⟩ := bind_ok rest
  obtain ⟨known, found, looked, rest⟩ := bind_ok rest
  obtain ⟨-, rest⟩ := guarded_ok rest
  obtain ⟨target, same, selection, rest⟩ := bind_ok rest
  obtain ⟨old, old', remembered, rest⟩ := bind_ok (current_bind_ok rest)
  obtain ⟨stored, evaluated, evaluation, rest⟩ := bind_ok rest
  obtain ⟨_, adopted, adoption, finished⟩ := bind_ok (get_bind_ok rest)
  obtain ⟨result, rfl⟩ := pure_ok finished
  cases result
  have kept : found.ControlKept [] final :=
    (controlDiscipline.selectElement _ _ _).ok selection
      |>.trans ((controlDiscipline.targetValue _ _).ok remembered)
      |>.trans ((controlDiscipline.assignedValue keeps _ _).ok evaluation)
      |>.trans ((controlDiscipline.adopt _ _ _).ok adoption)
  intro binding present type declared
  obtain ⟨bound, rfl⟩ := bindingOf_ok looked
  have expected : known.type = some type := (kept.lookup_type bound present).symm.trans declared
  rw [expectedType, expected] at adoption
  obtain ⟨conforming, rfl⟩ := adopt_ok adoption
  exact (Heap.conforms_congr (Heap.items_retag value type) value type).trans conforming

/-- An assignment keeps the machine sound if its write to an element, if it makes one, keeps the
machine typed where that matters. -/
theorem assignment_safe (followed : left.Followed typing alarm right) (fuel : Nat)
    (admitted : typing → ∀ name address place value before,
      preparedAssignment script left fuel machine = .ok (name, .element address place, value) before →
        (before.withElement address place value).Typed) :
    Safe typing alarm (assignment script left fuel) (assignment script right fuel) anything machine := by
  refine (preparedAssignment_safe script followed fuel machine).bind
    fun prepared before ran _ ⟨within, _⟩ sound => ?_
  obtain ⟨name, target, value⟩ := prepared
  refine .same fun _ final stored => ?_
  cases target with
  | named =>
      cases stored
      refine ⟨sound.rescope rfl sound.returned fun binding has => ?_, .refl _, trivial⟩
      rcases Scopes.has_assign has with old | ⟨found, looked, rfl⟩
      · exact .inl old
      · exact .inr ⟨within, fun _ => preparedAssignment_conforms script followed.control ran found looked⟩
  | element address place =>
      cases stored
      exact ⟨sound.withElement within fun matters => admitted matters name address place value before ran,
        Heap.grown_write _ _ _ _, trivial⟩

end Exec

end Onepass
