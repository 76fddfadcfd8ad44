import Onepass.Proofs.Typing.Binding

/-! # Statements keep a machine sound

Blocks, branches and loops pass on what the statements in them do, and the values that they bind
themselves, those of loop variables, were checked. So every statement keeps a machine sound that is
not an assignment to an element, and such an assignment does so if its write keeps the machine typed.
-/

set_option autoImplicit false

namespace Onepass

/-- The values that a loop has still to run through refer to no array outside the heap. -/
def Iteration.Within (iteration : Iteration) (heap : Heap) : Prop :=
  ∀ values, iteration = .listed values → ∀ value ∈ values, value.Within heap

theorem Iteration.Within.grown {iteration : Iteration} {first last : Heap}
    (within : iteration.Within first) (grown : first.Grown last) : iteration.Within last :=
  fun values same value member => (within values same value member).grown grown

/-- Whether the statement at a place is an assignment. -/
def Script.assigns (script : Script) (place : Nat) : Prop :=
  script.kindAt place = .identifier ∧
    ((script.kindAt (place + 1)).isAssignment || (script.kindAt (place + 1)).isStep ||
      script.kindAt (place + 1) = .symbol .leftBracket) = true

namespace Exec

variable {typing : Prop} {alarm : Failure} {machine final : Machine} {left right : Evaluator}
variable (script : Script)

/-! ## Blocks and branches -/

theorem block_safe {statement other : Exec Signal}
    (safe : ∀ machine, Safe typing alarm statement other anything machine) (fuel : Nat)
    (machine : Machine) :
    Safe typing alarm (block script statement fuel) (block script other fuel) anything machine := by
  induction fuel generalizing machine with
  | zero => exact .throw _
  | succ fuel ih =>
      unfold block
      refine .after (storeMoving.currentKind script) fun found _ _ _ => ?_
      split
      · exact .after (storeMoving.advance script) fun _ _ _ _ => .pure fun _ => trivial
      · exact .known (storeMoving.refuseToken script _) fun _ _ _ ran => nomatch ran
      · refine (safe _).bind fun signal _ _ _ _ => ?_
        split
        · exact ih _
        · exact .pure fun _ => trivial

theorem bodyContent_safe (followed : left.Followed typing alarm right) (fuel : Nat) (machine : Machine) :
    Safe typing alarm (bodyContent script left fuel) (bodyContent script right fuel) anything
      machine := by
  refine .after (storeMoving.accept script _) fun braced _ _ _ => ?_
  split
  · exact block_safe script followed.statement fuel _
  · exact followed.statement _

theorem body_safe (followed : left.Followed typing alarm right) {scope : Scope} (fuel : Nat)
    (fitting : ∀ entry ∈ scope.bindings, machine.heap.Fits typing entry.2) :
    Safe typing alarm (body script left scope fuel) (body script right scope fuel) anything
      machine := by
  refine .enclosed (fun sound => sound.rescope rfl sound.returned fun binding has => ?_) (.refl _)
    (bodyContent_safe script followed fuel _)
    (fun final kept => kept.rescope rfl kept.returned fun _ has => .inl (Scopes.has_close has)) fun _ => rfl
  rcases Scopes.has_push has with ⟨name, entry⟩ | outside
  · exact .inr (fitting _ entry)
  · exact .inl outside

theorem condition_safe (followed : left.Followed typing alarm right) (machine : Machine) :
    Safe typing alarm (condition script left) (condition script right) anything machine := by
  refine .after (storeMoving.current script) fun start _ _ _ => ?_
  refine (followed.expression _).bind fun value _ _ _ _ => ?_
  split
  · exact .pure fun _ => trivial
  · exact .after (storeMoving.describe _) fun _ _ _ _ => .refuse _ _

theorem conditionInParentheses_safe (followed : left.Followed typing alarm right) (machine : Machine) :
    Safe typing alarm (conditionInParentheses script left) (conditionInParentheses script right) anything
      machine := by
  refine .after (storeMoving.expectSymbol script _) fun _ _ _ _ => ?_
  refine (condition_safe script followed _).bind fun value _ _ _ _ => ?_
  exact .after (storeMoving.expectSymbol script _) fun _ _ _ _ => .pure fun _ => trivial

/-- A branch opens a scope without names. -/
theorem branch_safe (followed : left.Followed typing alarm right) (fuel : Nat) (machine : Machine) :
    Safe typing alarm (body script left .empty fuel) (body script right .empty fuel) anything
      machine :=
  body_safe script followed fuel (by simp [Scope.empty])

theorem branches_safe (followed : left.Followed typing alarm right) (fuel : Nat) (taken : Bool)
    (machine : Machine) :
    Safe typing alarm (branches script left fuel taken) (branches script right fuel taken) anything
      machine := by
  induction fuel generalizing taken machine with
  | zero => exact .throw _
  | succ fuel ih =>
      unfold branches
      refine .after (storeMoving.accept script _) fun more _ _ _ => ?_
      split
      · refine (conditionInParentheses_safe script followed _).bind fun holds _ _ _ _ => ?_
        split
        · refine (branch_safe script followed fuel _).bind fun signal _ _ _ _ => ?_
          split
          · exact ih true _
          · exact .pure fun _ => trivial
        · exact .after (storeMoving.passBody script) fun _ _ _ _ => ih taken _
      · refine .after (storeMoving.accept script _) fun last _ _ _ => ?_
        split
        · split
          · exact .after (storeMoving.passBody script) fun _ _ _ _ => .pure fun _ => trivial
          · exact branch_safe script followed fuel _
        · exact .pure fun _ => trivial

theorem conditional_safe (followed : left.Followed typing alarm right) (fuel : Nat) (machine : Machine) :
    Safe typing alarm (conditional script left fuel) (conditional script right fuel) anything
      machine := by
  refine .after (storeMoving.expect script _) fun _ _ _ _ => ?_
  refine (conditionInParentheses_safe script followed _).bind fun holds _ _ _ _ => ?_
  split
  · refine (branch_safe script followed fuel _).bind fun signal _ _ _ _ => ?_
    split
    · exact branches_safe script followed fuel true _
    · exact .pure fun _ => trivial
  · refine .after (storeMoving.passBody script) fun _ _ _ _ => ?_
    exact branches_safe script followed fuel false _

/-! ## Loops -/

theorem iterate_safe (followed : left.Followed typing alarm right) {scope : Scope} (fuel : Nat)
    (fitting : ∀ entry ∈ scope.bindings, machine.heap.Fits typing entry.2) :
    Safe typing alarm (iterate script left scope fuel) (iterate script right scope fuel) anything
      machine :=
  .enclosed (fun sound => sound.of_eq rfl rfl rfl) (.refl _) (body_safe script followed fuel fitting)
    (fun _ kept => kept.of_eq rfl rfl rfl) fun _ => rfl

theorem nextOf_within {iteration : Iteration} {next : Option (Value × Iteration)} {heap : Heap}
    (within : iteration.Within heap) (succeeded : nextOf iteration machine = .ok next final) :
    ∀ value rest, next = some (value, rest) → value.Within heap ∧ rest.Within heap := by
  have stepped : iteration.next? = .ok next := by
    unfold nextOf at succeeded
    cases found : iteration.next? with
    | error fault =>
        rw [found] at succeeded
        exact absurd succeeded throw_ne_ok
    | ok known =>
        rw [found] at succeeded
        obtain ⟨rfl, rfl⟩ := pure_ok succeeded
        rfl
  rintro value rest rfl
  cases iteration with
  | listed values =>
      cases values with
      | nil => cases stepped
      | cons first others =>
          cases stepped
          refine ⟨within _ rfl _ List.mem_cons_self, fun values same member inside => ?_⟩
          cases same
          exact within _ rfl member (List.mem_cons_of_mem _ inside)
  | counted progression =>
      simp only [Iteration.next?] at stepped
      cases progressed : progression.next? with
      | error fault =>
          rw [progressed] at stepped
          cases stepped
      | ok step =>
          rw [progressed] at stepped
          cases step with
          | none => cases stepped
          | some pair =>
              cases stepped
              exact ⟨Value.within_of_tag (by simp [Value.tag]), nofun⟩

theorem leaveLoop_safe (bodyStart : Nat) (known : Option Nat) (machine : Machine) :
    Safe typing alarm (leaveLoop script bodyStart known) (leaveLoop script bodyStart known) anything
      machine := by
  unfold leaveLoop
  split
  · exact .after (storeMoving.moveTo _) fun _ _ _ _ => .pure fun _ => trivial
  · refine .after (storeMoving.bodyEnd script bodyStart) fun finish _ _ _ => ?_
    exact .after (storeMoving.moveTo finish) fun _ _ _ _ => .pure fun _ => trivial

theorem traverse_safe (followed : left.Followed typing alarm right) (name : Token) (type : DeclaredType)
    (bodyStart fuel : Nat) {iteration : Iteration} (known : Option Nat)
    (within : iteration.Within machine.heap) :
    Safe typing alarm (traverse script left name type bodyStart fuel iteration known)
      (traverse script right name type bodyStart fuel iteration known) anything machine := by
  induction fuel generalizing iteration known machine with
  | zero => exact .throw _
  | succ fuel ih =>
      unfold traverse
      refine .after (storeMoving.nextOf iteration) fun next stepped ran same => ?_
      rw [← same] at within
      have inside := nextOf_within within ran
      split
      · exact leaveLoop_safe script bodyStart known _
      case _ value rest =>
        obtain ⟨valueWithin, restWithin⟩ := inside value rest rfl
        refine .after (storeMoving.conforms value type) fun fits _ looked _ => ?_
        obtain ⟨rfl, rfl⟩ := conforms_ok looked
        split
        · refine .after (storeMoving.describe value) fun _ _ _ _ => ?_
          exact .after (storeMoving.refuse _ _) fun _ _ refused _ => absurd refused refuse_ne_ok
        case _ conforming =>
          refine .after (storeMoving.moveTo bodyStart) fun _ moved ran entered => ?_
          have fitting : moved.heap.Fits typing ⟨value, some type, false⟩ := by
            rw [entered]
            refine ⟨valueWithin, fun _ found declared => ?_⟩
            cases declared
            simpa using conforming
          refine (iterate_safe script followed fuel (by simpa using fitting)).bind
            fun signal after _ grown _ => ?_
          refine .after (storeMoving.noteEnd known signal) fun known noted _ same => ?_
          split
          · exact leaveLoop_safe script bodyStart known _
          · exact .pure fun _ => trivial
          · refine ih known ?_
            rw [same]
            refine restWithin.grown ?_
            rwa [← entered]

theorem rangeStep_safe (followed : left.Followed typing alarm right) (machine : Machine) :
    Safe typing alarm (rangeStep script left.expression) (rangeStep script right.expression) anything
      machine := by
  refine .after (storeMoving.accept script _) fun stepped _ _ _ => ?_
  split
  · refine .after (storeMoving.current script) fun token _ _ _ => ?_
    exact (followed.expression _).bind fun _ _ _ _ _ => .pure fun _ => trivial
  · exact .after (storeMoving.current script) fun _ _ _ _ => .pure fun _ => trivial

theorem iterationOver_within {value : Value} {position : Position} {iteration : Iteration}
    (sound : machine.Sound typing)
    (succeeded : iterationOver value position machine = .ok iteration final) :
    iteration.Within machine.heap := by
  rintro values rfl element member
  unfold iterationOver at succeeded
  split at succeeded
  · have finished := get_bind_ok succeeded
    cases finished
    exact sound.closed _ element (Array.mem_toList_iff.mp member)
  · cases succeeded
    obtain ⟨char, -, rfl⟩ := List.mem_map.mp member
    exact Value.within_of_tag (by simp [Value.tag])
  · exact absurd succeeded bind_refuse_ne_ok

theorem iteration_safe (followed : left.Followed typing alarm right) (machine : Machine) :
    Safe typing alarm (iteration script left.expression) (iteration script right.expression)
      Iteration.Within machine := by
  refine .after (storeMoving.current script) fun start _ _ _ => ?_
  refine (followed.expression _).bind fun first _ _ _ _ => ?_
  refine .after (storeMoving.accept script _) fun ranged _ _ _ => ?_
  split
  · refine .after (storeMoving.current script) fun finish _ _ _ => ?_
    refine (followed.expression _).bind fun last _ _ _ _ => ?_
    refine (rangeStep_safe script followed _).bind fun step _ _ _ _ => ?_
    obtain ⟨step, position⟩ := step
    dsimp only
    refine .after (storeMoving.boundOf first _) fun lower _ _ _ => ?_
    refine .after (storeMoving.boundOf last _) fun upper _ _ _ => ?_
    refine .after (storeMoving.boundOf step position) fun distance _ _ _ => ?_
    exact .guarded _ (storeMoving.refuse _ _) refuse_stops (.pure fun _ => nofun)
  · exact .known (storeMoving.iterationOver first _) fun _ _ => iterationOver_within

theorem traversal_safe (followed : left.Followed typing alarm right) (fuel : Nat) (machine : Machine) :
    Safe typing alarm (traversal script left fuel) (traversal script right fuel) anything machine := by
  refine .after (storeMoving.expect script _) fun _ _ _ _ => ?_
  refine .after (storeMoving.expectSymbol script _) fun _ _ _ _ => ?_
  refine .after (storeMoving.expect script _) fun name _ _ _ => ?_
  refine .after (storeMoving.expectSymbol script _) fun _ _ _ _ => ?_
  refine .after (storeMoving.readType script) fun type _ _ _ => ?_
  refine .after (storeMoving.expect script _) fun _ _ _ _ => ?_
  refine (iteration_safe script followed _).bind fun values _ _ _ within => ?_
  refine .after (storeMoving.expectSymbol script _) fun _ behind _ same => ?_
  rw [← same] at within
  exact .reading (traverse_safe script followed name type behind.cursor fuel none within)

theorem leaveRepetition_safe (header : Nat) (known : Option Nat) (machine : Machine) :
    Safe typing alarm (leaveRepetition script header known) (leaveRepetition script header known)
      anything machine := by
  unfold leaveRepetition
  split
  · exact .after (storeMoving.moveTo _) fun _ _ _ _ => .pure fun _ => trivial
  · exact .after (storeMoving.ofDiagnosed _) fun bodyStart _ _ _ =>
      leaveLoop_safe script bodyStart.val none _

theorem repeatWhile_safe (followed : left.Followed typing alarm right) (header fuel : Nat)
    (known : Option Nat) (machine : Machine) :
    Safe typing alarm (repeatWhile script left header fuel known)
      (repeatWhile script right header fuel known) anything machine := by
  induction fuel generalizing known machine with
  | zero => exact .throw _
  | succ fuel ih =>
      unfold repeatWhile
      refine .after (storeMoving.moveTo header) fun _ _ _ _ => ?_
      refine (conditionInParentheses_safe script followed _).bind fun holds _ _ _ _ => ?_
      split
      · refine (iterate_safe script followed fuel (by simp [Scope.empty])).bind
          fun signal _ _ _ _ => ?_
        refine .after (storeMoving.noteEnd known signal) fun known _ _ _ => ?_
        split
        · exact leaveRepetition_safe script header known _
        · exact .pure fun _ => trivial
        · exact ih known _
      · exact leaveRepetition_safe script header known _

theorem repetition_safe (followed : left.Followed typing alarm right) (fuel : Nat) (machine : Machine) :
    Safe typing alarm (repetition script left fuel) (repetition script right fuel) anything
      machine := by
  refine .after (storeMoving.expect script _) fun _ _ _ _ => ?_
  exact .reading (repeatWhile_safe script followed _ fuel none _)

/-! ## Single statements -/

theorem printedValues_safe (followed : left.Followed typing alarm right) (fuel : Nat) (machine : Machine) :
    Safe typing alarm (printedValues script left fuel) (printedValues script right fuel) anything
      machine := by
  induction fuel generalizing machine with
  | zero => exact .throw _
  | succ fuel ih =>
      unfold printedValues
      refine .after (storeMoving.currentKind script) fun found _ _ _ => ?_
      split
      · exact .pure fun _ => trivial
      · exact .idle (storeMoving.refuseToken script _)
      · refine (followed.expression _).bind fun value _ _ _ _ => ?_
        refine .after (storeMoving.printed value) fun text _ _ _ => ?_
        refine .after (storeMoving.accept script _) fun _ _ _ _ => ?_
        exact (ih _).bind fun _ _ _ _ _ => .pure fun _ => trivial

theorem printValues_safe (followed : left.Followed typing alarm right) (fuel : Nat) (machine : Machine) :
    Safe typing alarm (printValues script left fuel) (printValues script right fuel) anything machine := by
  refine .after (storeMoving.advance script) fun keyword _ _ _ => ?_
  refine .after (storeMoving.expectSymbol script _) fun _ _ _ _ => ?_
  refine (printedValues_safe script followed fuel _).bind fun text _ _ _ _ => ?_
  refine .after (storeMoving.expectSymbol script _) fun _ _ _ _ => ?_
  exact .idle fun machine => ⟨rfl, rfl, rfl⟩

theorem functionDeclaration_idle (fuel : Nat) :
    Keeps Machine.SameStore (functionDeclaration script fuel) := by
  refine storeMoving.declaringFunction script (fun function position => ?_) fuel
  refine storeMoving.bind storeMoving.get fun machine => ?_
  dsimp only
  split
  · exact storeMoving.pure _
  · split
    · exact fun _ => ⟨rfl, rfl, rfl⟩
    · exact storeMoving.refuse _ _

theorem jump_safe (machine : Machine) :
    Safe typing alarm (jump script) (jump script) anything machine := by
  refine .after (storeMoving.advance script) fun token _ _ _ => ?_
  refine .reading (.guarded _ (storeMoving.refuse _ _) refuse_stops ?_)
  exact .after (storeMoving.acceptSemicolon script) fun _ _ _ _ => .pure fun _ => trivial

/-- The value of a `return` conforms to the type of the function. -/
theorem returnedValue_safe (followed : left.Followed typing alarm right) (function : Function)
    (keyword : Token) (machine : Machine) :
    Safe typing alarm (returnedValue script left function keyword)
      (returnedValue script right function keyword)
      (fun value heap => value.Within heap ∧ heap.conforms value function.returnType = true)
      machine := by
  refine .after (storeMoving.current script) fun start _ _ _ => ?_
  refine .reading ?_
  split
  · exact (followed.expression _).tentative.checked
      (fun value _ _ _ within conforming => .pure fun _ => ⟨within, conforming⟩)
      fun _ _ _ _ => bind_refuse_ne_ok
  · split
    case isTrue void =>
      refine .pure fun _ => ⟨Value.within_of_tag (by simp [Value.tag]), ?_⟩
      rw [void]
      rfl
    case isFalse => exact .refuse _ _

omit script in
theorem giveBack_safe {value : Value} (within : value.Within machine.heap) :
    Safe typing alarm (giveBack value) (giveBack value) anything machine := by
  refine fun sound => .same fun _ final ran => ?_
  cases ran
  exact ⟨sound.rescope rfl within fun _ has => .inl has, .refl _, trivial⟩

theorem returnFrom_safe (followed : left.Followed typing alarm right) (machine : Machine) :
    Safe typing alarm (returnFrom script left) (returnFrom script right) anything machine := by
  refine .after (storeMoving.advance script) fun token _ _ _ => ?_
  refine .reading ?_
  split
  · exact .refuse _ _
  · refine (returnedValue_safe script followed _ token _).bind
      fun value _ _ _ ⟨within, conforming⟩ => ?_
    have retagged : Safe typing alarm (retag value _) (retag value _) anything _ := fun sound =>
      .same fun _ final ran => by
        cases ran
        exact ⟨sound.retag conforming, Heap.grown_retag _ _ _, trivial⟩
    refine retagged.bind fun _ _ _ grown _ => ?_
    refine (giveBack_safe (within.grown grown)).bind fun _ _ _ _ _ => ?_
    exact .after (storeMoving.acceptSemicolon script) fun _ _ _ _ => .pure fun _ => trivial

theorem simple_safe {action other : Exec Unit} (safe : Safe typing alarm action other anything machine) :
    Safe typing alarm (simple script action) (simple script other) anything machine := by
  refine safe.bind fun _ _ _ _ _ => ?_
  exact .after (storeMoving.acceptSemicolon script) fun _ _ _ _ => .pure fun _ => trivial

theorem namedStatement_safe (followed : left.Followed typing alarm right) (fuel : Nat)
    (begins : script.kindAt machine.cursor = .identifier)
    (admitted : typing → script.assigns machine.cursor → ∀ name address place value before,
      preparedAssignment script left fuel machine = .ok (name, .element address place, value) before →
        (before.withElement address place value).Typed) :
    Safe typing alarm (namedStatement script left fuel) (namedStatement script right fuel) anything
      machine := by
  refine .after (storeMoving.followingKind script) fun following same looked _ => ?_
  obtain ⟨rfl, rfl⟩ := followingKind_ok looked
  split
  · exact variableDeclaration_safe script followed fuel _
  · split
    · exact (call_safe script followed fuel _).bind fun _ _ _ _ _ => .pure fun _ => trivial
    · split
      case isTrue assigns =>
        refine assignment_safe script followed fuel fun matters => ?_
        exact admitted matters ⟨begins, by simpa using assigns⟩
      case isFalse => exact .after (storeMoving.current script) fun _ _ _ _ => .refuse _ _

/-- A statement keeps the machine sound, if its write to an element, if it makes one, keeps the
machine typed where that matters. -/
theorem dispatch_safe (followed : left.Followed typing alarm right) (verbosity fuel : Nat)
    (admitted : typing → script.assigns machine.cursor → ∀ name address place value before,
      preparedAssignment script left fuel (observed script verbosity machine) =
        .ok (name, .element address place, value) before →
          (before.withElement address place value).Typed) :
    Safe typing alarm (dispatch script verbosity left fuel) (dispatch script verbosity right fuel)
      anything machine := by
  have performed : Safe typing alarm
      (perform script left fuel (script.kindAt machine.cursor)
        (script.tokenAt machine.cursor).position)
      (perform script right fuel (script.kindAt machine.cursor)
        (script.tokenAt machine.cursor).position)
      anything (observed script verbosity machine) := by
    generalize known : script.kindAt machine.cursor = kind
    unfold perform
    split
    · exact simple_safe script (printValues_safe script followed fuel _)
    · exact simple_safe script (printValues_safe script followed fuel _)
    · exact conditional_safe script followed fuel _
    · exact traversal_safe script followed fuel _
    · exact repetition_safe script followed fuel _
    · exact simple_safe script (.idle (functionDeclaration_idle script fuel))
    · exact returnFrom_safe script followed _
    · exact jump_safe script _
    · exact jump_safe script _
    · exact branch_safe script followed fuel _
    · exact simple_safe script (variableDeclaration_safe script followed fuel _)
    · exact simple_safe script (namedStatement_safe script followed fuel known admitted)
    · exact simple_safe script (.pure fun _ => trivial)
    · exact .refuse _ _
  exact fun sound => performed (sound.of_eq rfl rfl rfl)

theorem namedStatement_assignment (evaluator : Evaluator) (fuel : Nat)
    (assigns : script.assigns machine.cursor) :
    namedStatement script evaluator fuel machine = assignment script evaluator fuel machine := by
  have following := assigns.2
  have other : ∀ mark, mark = .colon ∨ mark = .leftParen →
      script.kindAt (machine.cursor + 1) ≠ .symbol mark := by
    rintro mark either same
    rw [same] at following
    rcases either with rfl | rfl <;> simp [Kind.isAssignment, Kind.isStep] at following
  change (if script.kindAt (machine.cursor + 1) = .symbol .colon then _ else _ : Exec Unit) _ = _
  rw [if_neg (other _ (.inl rfl)), if_neg (other _ (.inr rfl)), if_pos following]

/-- An assignment is counted, and then executed. -/
theorem dispatch_assignment (evaluator : Evaluator) (verbosity fuel : Nat)
    (assigns : script.assigns machine.cursor) :
    dispatch script verbosity evaluator fuel machine =
      simple script (assignment script evaluator fuel) (observed script verbosity machine) := by
  have named : namedStatement script evaluator fuel (observed script verbosity machine) = _ :=
    namedStatement_assignment script evaluator fuel assigns
  rw [dispatch_eq, assigns.1]
  change EStateM.bind _ _ _ = EStateM.bind _ _ _
  unfold EStateM.bind
  rw [named]

theorem program_safe (followed : left.Followed typing alarm right) (rounds : Nat) (machine : Machine) :
    Safe typing alarm (program script left rounds) (program script right rounds) anything machine := by
  induction rounds generalizing machine with
  | zero => exact .throw _
  | succ rounds ih =>
      unfold program
      refine .after (storeMoving.currentKind script) fun found _ _ _ => ?_
      split
      · exact .pure fun _ => trivial
      · exact (followed.statement _).bind fun _ _ _ _ _ => ih _

end Exec

end Onepass
