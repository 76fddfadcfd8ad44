import Onepass.Proofs.Typing.Statement
import Onepass.Proofs.Watch

/-! # When stores stay typed

A store can only become ill-typed by an assignment to an element. The empty array conforms to every
array type, so one array may be known to variables of different types; an assignment to its elements
through one of them does not look at the others. References never lead to arrays that do not exist,
whatever the types say.
-/

set_option autoImplicit false

namespace Onepass.Exec

variable (script : Script) (verbosity : Nat)

/-- The machine is typed before the statement, and after it unless it fails. -/
def typedAround : Watch := fun evaluator fuel machine =>
  machine.Typed ∧ ∀ signal final,
    dispatch script verbosity evaluator fuel machine = .ok signal final → final.Typed

/-- If the statement assigns to an element of an array, the element conforms to every type that some
variable or array demands of it when it is stored. -/
def elementAdmitted : Watch := fun evaluator fuel machine =>
  script.assigns machine.cursor → ∀ name address place value before,
    preparedAssignment script evaluator fuel (observed script verbosity machine) =
      .ok (name, .element address place, value) before →
        (before.withElement address place value).Admits address value

variable {script verbosity}

/-! ## From one watch to another -/

/-- On sound machines the first watch makes sure that writes keep the machine typed, if typing matters,
and where it holds, the second one holds for a statement that can be followed. -/
structure Secures (typing : Prop) (script : Script) (verbosity : Nat) (alarm : Failure)
    (first second : Watch) : Prop where
  admitted : ∀ {left right fuel machine}, left.Followed typing alarm right → machine.Sound typing →
    first left fuel machine → typing → script.assigns machine.cursor → ∀ name address place value before,
      preparedAssignment script left fuel (observed script verbosity machine) =
        .ok (name, .element address place, value) before →
          (before.withElement address place value).Typed
  carried : ∀ {left right fuel machine}, left.Followed typing alarm right → machine.Sound typing →
    first left fuel machine →
      (∃ final, dispatch script verbosity left fuel machine = .error alarm final) ∨
        second right fuel machine

namespace Secures

variable {typing : Prop} {alarm : Failure} {first second : Watch}

/-- The execution that gives up where the first watch fails is followed by the one that does
something else where the second watch fails. -/
theorem followed (secures : Secures typing script verbosity alarm first second) (instead : Exec Signal)
    (fuel : Nat) :
    (watched script verbosity first (throw alarm) fuel).Followed typing alarm
      (watched script verbosity second instead fuel) := by
  induction fuel with
  | zero => exact ⟨fun _ => .throw _, fun _ => .throw _, watched_keeps script verbosity
      controlDiscipline first alarm 0⟩
  | succ fuel ih =>
      refine ⟨disjunction_safe script ih (call_safe script ih fuel) fuel, fun machine sound => ?_,
        watched_keeps script verbosity controlDiscipline first alarm (fuel + 1)⟩
      by_cases holds : first (watched script verbosity first (throw alarm) fuel) fuel machine
      · have permitted := watched_statement_of_holds script verbosity holds
        rcases secures.carried ih sound holds with ⟨final, alarmed⟩ | other
        · exact .inl ⟨final, permitted.trans alarmed⟩
        · have dispatched := dispatch_safe script ih verbosity fuel
            (secures.admitted ih sound holds) sound
          unfold Follows at dispatched ⊢
          rwa [permitted, watched_statement_of_holds script verbosity other]
      · exact .inl ⟨machine, watched_statement_of_fails script verbosity holds⟩

/-- If no alarm is raised, the other execution has the same outcome, and it ends with a sound
machine if it succeeds. -/
theorem outcome (secures : Secures typing script verbosity alarm first second) {fuel : Nat}
    (throughout : Throughout script verbosity fuel first)
    (quiet : ∀ final, program script (evaluator script verbosity fuel) fuel .initial ≠
      .error alarm final) (instead : Exec Signal) :
    program script (watched script verbosity second instead fuel) fuel .initial =
        program script (evaluator script verbosity fuel) fuel .initial ∧
      ∀ result final, program script (evaluator script verbosity fuel) fuel .initial =
        .ok result final → final.Sound typing := by
  have follows := program_safe script (secures.followed instead fuel) fuel .initial .initial
  unfold Follows at follows
  rw [throughout (throw alarm)] at follows
  rcases follows with ⟨final, alarmed⟩ | ⟨agree, met⟩
  · exact absurd alarmed (quiet final)
  · exact ⟨agree, fun result final ran => (met result final ran).1⟩

end Secures

theorem throughout_of_secures {typing : Prop} {first second : Watch}
    (secures : ∀ alarm, Secures typing script verbosity alarm first second) {fuel : Nat}
    (throughout : Throughout script verbosity fuel first) :
    Throughout script verbosity fuel second := by
  intro instead
  obtain ⟨alarm, quiet⟩ :=
    exists_other_failure (program script (evaluator script verbosity fuel) fuel .initial)
  exact ((secures alarm).outcome throughout quiet instead).1

/-! ## References -/

theorem grounded_secures (alarm : Failure) :
    Secures False script verbosity alarm (fun _ _ _ => True) fun _ _ machine => machine.Grounded :=
  ⟨fun _ _ _ impossible => impossible.elim, fun _ sound _ => .inr sound.grounded⟩

/-- Whatever the types say, no statement of an execution is executed on a machine of which some binding
or some array refers to an array that does not exist. -/
theorem grounded_throughout (script : Script) (verbosity fuel : Nat) :
    Throughout script verbosity fuel fun _ _ machine => machine.Grounded :=
  throughout_of_secures grounded_secures
    (throughout_of_always script verbosity (fun _ _ _ => trivial) fuel)

/-- Nor does a script end with such a machine. -/
theorem grounded_at_end {fuel : Nat} {result : Unit} {final : Machine}
    (ran : program script (evaluator script verbosity fuel) fuel .initial = .ok result final) :
    final.Grounded :=
  ((grounded_secures .endless).outcome
    (throughout_of_always script verbosity (fun _ _ _ => trivial) fuel) (by simp [ran])
    (throw .endless)).2 result final ran |>.grounded

/-! ## Typed stores and admitted elements -/

variable {alarm : Failure} {left right : Evaluator} {fuel : Nat} {machine before : Machine}
variable {name : Token} {address : Address} {place : Nat} {value : Value}

/-- An assignment to an element succeeds once it was prepared, and leaves the element behind. -/
theorem dispatch_element (assigns : script.assigns machine.cursor)
    (prepared : preparedAssignment script left fuel (observed script verbosity machine) =
      .ok (name, .element address place, value) before) :
    ∃ cursor, dispatch script verbosity left fuel machine =
      .ok .normal { before.withElement address place value with cursor } := by
  have stored : assignment script left fuel (observed script verbosity machine) =
      .ok () (before.withElement address place value) := bind_of_ok prepared _
  rw [dispatch_assignment script left verbosity fuel assigns, simple, bind_of_ok stored,
    bind_of_ok (acceptSemicolon_eq script _)]
  exact ⟨_, rfl⟩

theorem preparedAssignment_sound (followed : left.Followed True alarm right) (sound : machine.Sound True)
    (prepared : preparedAssignment script left fuel machine =
      .ok (name, .element address place, value) before) :
    before.Sound True ∧ place < (before.heap.items address).size := by
  rcases preparedAssignment_safe script followed fuel machine sound with ⟨final, alarmed⟩ | ⟨-, met⟩
  · rw [prepared] at alarmed
    cases alarmed
  · obtain ⟨kept, -, -, inside⟩ := met _ _ prepared
    exact ⟨kept, inside address place rfl⟩

theorem typedAround_admitted (watch : typedAround script verbosity left fuel machine)
    (assigns : script.assigns machine.cursor)
    (prepared : preparedAssignment script left fuel (observed script verbosity machine) =
      .ok (name, .element address place, value) before) :
    (before.withElement address place value).Typed := by
  obtain ⟨cursor, ran⟩ := dispatch_element assigns prepared
  have typed := watch.2 _ _ ran
  exact ⟨typed.bindings, typed.heap⟩

theorem elementAdmitted_secures (alarm : Failure) :
    Secures True script verbosity alarm (elementAdmitted script verbosity)
      (typedAround script verbosity) := by
  have admitted : ∀ {left right fuel machine}, left.Followed True alarm right → machine.Sound True →
      elementAdmitted script verbosity left fuel machine → script.assigns machine.cursor →
        ∀ name address place value before,
          preparedAssignment script left fuel (observed script verbosity machine) =
            .ok (name, .element address place, value) before →
              (before.withElement address place value).Typed := by
    intro left right fuel machine followed sound watch assigns name address place value before prepared
    have observedSound : (observed script verbosity machine).Sound True := sound.of_eq rfl rfl rfl
    exact Machine.typed_withElement (preparedAssignment_sound followed observedSound prepared).1.toTyped
      (watch assigns name address place value before prepared)
  refine ⟨fun followed sound watch _ => admitted followed sound watch, fun followed sound watch => ?_⟩
  rcases dispatch_safe script followed verbosity _ (fun _ => admitted followed sound watch) sound with
    alarmed | ⟨agree, met⟩
  · exact .inl alarmed
  · refine .inr ⟨sound.toTyped, fun signal final ran => ?_⟩
    exact (met signal final (agree.symm.trans ran)).1.toTyped

theorem typedAround_secures (alarm : Failure) :
    Secures True script verbosity alarm (typedAround script verbosity)
      (elementAdmitted script verbosity) := by
  refine ⟨fun _ _ watch _ assigns _ _ _ _ _ prepared => typedAround_admitted watch assigns prepared,
    fun {left right fuel machine} followed sound watch => ?_⟩
  have observedSound : (observed script verbosity machine).Sound True := sound.of_eq rfl rfl rfl
  by_cases assigns : script.assigns machine.cursor
  · rcases preparedAssignment_safe script followed fuel _ observedSound with
      ⟨final, alarmed⟩ | ⟨agree, -⟩
    · refine .inl ⟨final, ?_⟩
      rw [dispatch_assignment script left verbosity fuel assigns]
      exact bind_of_error (bind_of_error alarmed _) _
    · refine .inr fun _ name address place value before prepared => ?_
      rw [agree] at prepared
      obtain ⟨kept, inside⟩ := preparedAssignment_sound followed observedSound prepared
      exact (Machine.typed_withElement_iff kept.toTyped inside).mp
        (typedAround_admitted watch assigns prepared)
  · exact .inr fun assigned => absurd assigned assigns

/-- The store is typed before and after every statement of an execution, at any depth of calls,
exactly if every assignment to an element of an array stores a value that conforms to every type that
variables and arrays, all aliases included, demand of the elements of that array. Declarations,
assignments to variables, loop variables, parameters, results and retagging never make it ill-typed. -/
theorem store_typed_iff (script : Script) (verbosity fuel : Nat) :
    Throughout script verbosity fuel (typedAround script verbosity) ↔
      Throughout script verbosity fuel (elementAdmitted script verbosity) :=
  ⟨throughout_of_secures typedAround_secures, throughout_of_secures elementAdmitted_secures⟩

/-! ## Scripts that assign to no element -/

/-- Indices that were read end behind a bracket. -/
theorem indices_behind_bracket {evaluator : Evaluator} {fuel : Nat} {machine final : Machine}
    {selected : List (Token × Value)}
    (read : indices script evaluator fuel machine = .ok selected final) :
    (selected = [] ∧ final = machine) ∨
      ∃ place, script.kindAt place = .symbol .rightBracket ∧ final.cursor = place + 1 := by
  induction fuel generalizing machine selected with
  | zero => exact absurd read throw_ne_ok
  | succ fuel ih =>
      unfold indices at read
      have looked := currentKind_bind_ok read
      split at looked
      case isFalse =>
        obtain ⟨rfl, rfl⟩ := pure_ok looked
        exact .inl ⟨rfl, rfl⟩
      case isTrue =>
        obtain ⟨_, opened, -, rest⟩ := bind_ok looked
        obtain ⟨index, evaluated, -, rest⟩ := bind_ok (current_bind_ok rest)
        obtain ⟨closing, rest⟩ := expectSymbol_bind_ok rest
        obtain ⟨others, behind, more, finished⟩ := bind_ok rest
        obtain ⟨rfl, rfl⟩ := pure_ok finished
        right
        rcases ih more with ⟨-, rfl⟩ | later
        · exact ⟨evaluated.cursor, closing, rfl⟩
        · exact later

/-- An assignment whose operator does not follow a bracket assigns to a variable. -/
theorem preparedAssignment_named {evaluator : Evaluator} {fuel : Nat} {machine final : Machine}
    {name : Token} {target : Target} {value : Value}
    (unindexed : ∀ place, script.kindAt place = .symbol .rightBracket →
      ((script.kindAt (place + 1)).isAssignment || (script.kindAt (place + 1)).isStep) = false)
    (prepared : preparedAssignment script evaluator fuel machine = .ok (name, target, value) final) :
    target = .named := by
  obtain ⟨read, _, -, rest⟩ := bind_ok prepared
  obtain ⟨_, _, -, rest⟩ := bind_ok rest
  obtain ⟨selected, behind, indexed, rest⟩ := bind_ok rest
  obtain ⟨operates, rest⟩ := guarded_ok (current_bind_ok rest)
  obtain ⟨_, _, -, rest⟩ := bind_ok rest
  obtain ⟨binding, _, -, rest⟩ := bind_ok rest
  obtain ⟨-, rest⟩ := guarded_ok rest
  obtain ⟨found, _, selection, rest⟩ := bind_ok rest
  obtain ⟨_, _, -, rest⟩ := bind_ok (current_bind_ok rest)
  obtain ⟨_, _, -, rest⟩ := bind_ok rest
  obtain ⟨_, _, -, finished⟩ := bind_ok (get_bind_ok rest)
  obtain ⟨result, -⟩ := pure_ok finished
  cases result
  rcases indices_behind_bracket indexed with ⟨rfl, -⟩ | ⟨place, closing, next⟩
  · obtain ⟨rfl, -⟩ := pure_ok selection
    rfl
  · have plain := unindexed place closing
    rw [← next, Bool.or_eq_false_iff] at plain
    have assigns : ¬ (!(script.kindAt behind.cursor).isAssignment &&
        !(script.kindAt behind.cursor).isStep) = true := operates
    rw [plain.1, plain.2] at assigns
    exact absurd rfl assigns

/-- A script in which no operator of assignment follows a bracket keeps the store typed. -/
theorem typed_without_element_assignments (script : Script) (verbosity fuel : Nat)
    (unindexed : ∀ place, script.kindAt place = .symbol .rightBracket →
      ((script.kindAt (place + 1)).isAssignment || (script.kindAt (place + 1)).isStep) = false) :
    Throughout script verbosity fuel (typedAround script verbosity) := by
  refine throughout_of_secures elementAdmitted_secures (throughout_of_always script verbosity ?_ fuel)
  intro evaluator fuel machine _ name address place value before prepared
  cases preparedAssignment_named unindexed prepared

/-! ## An alias that becomes ill-typed -/

/-- A store that is typed throughout an execution is typed at its end. -/
theorem typed_at_end {fuel : Nat} {result : Unit} {final : Machine}
    (throughout : Throughout script verbosity fuel (typedAround script verbosity))
    (ran : program script (evaluator script verbosity fuel) fuel .initial = .ok result final) :
    final.Typed :=
  ((typedAround_secures .endless).outcome throughout (by simp [ran]) (throw .endless)).2
    result final ran |>.toTyped

/-- An array that holds an empty array is known to two variables, one for arrays of numbers and one
for arrays of texts. A number stored through the first leaves the second ill-typed. -/
theorem ill_typed_through_alias :
    let script :=
      Script.ofSource "a: number[][] = [[]]\nb: string[][] = a\na[0] = [1]".toList
    let final := finalOf (program script (evaluator script 0 8) 8 .initial)
    program script (evaluator script 0 8) 8 .initial = .ok () final ∧ ¬ final.Typed ∧
      ¬ Throughout script 0 8 (typedAround script 0) := by
  intro script final
  have ran : program script (evaluator script 0 8) 8 .initial = .ok () final := by decide +kernel
  have bound : final.scopes.lookup? "b" = some ⟨.array 1, some ⟨"string", 2⟩, false⟩ := by
    decide +kernel
  have spoiled : final.heap.conforms (.array 1) ⟨"string", 2⟩ = false := by decide +kernel
  have ill : ¬ final.Typed := by
    intro typed
    have conforming := typed.bindings _ (Scopes.has_of_lookup bound) _ rfl
    rw [spoiled] at conforming
    cases conforming
  exact ⟨ran, ill, fun throughout => ill (typed_at_end throughout ran)⟩

end Onepass.Exec
