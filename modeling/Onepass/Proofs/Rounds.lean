import Onepass.Proofs.Decimal.Progression
import Onepass.Proofs.Termination.Basic

/-! # The rounds of a loop over fixed values

What a loop over an array, a text or a range runs through is settled when its header was evaluated. The
body is executed once for each value, always from the same place and in a scope of its own, and whatever
it does, the values that are still to come stay the same. A `continue` goes on with the next one; only a
`break`, a `return` or a failure leaves values out.
-/

set_option autoImplicit false

namespace Onepass.Exec

open Machine (ControlKept)

/-! ## The header -/

/-- A loop that was read up to its body. -/
structure Loop where
  name : Token
  type : DeclaredType
  values : Iteration
  bodyStart : Nat
  deriving DecidableEq, Repr

/-- Reads the header of a loop. -/
def loopHeader (script : Script) (expression : Exec Value) : Exec Loop := do
  let _ ← expect script (.keyword .forWord)
  expectSymbol script .leftParen
  let name ← expect script .identifier
  expectSymbol script .colon
  let type ← readType script
  let _ ← expect script (.keyword .inWord)
  let values ← iteration script expression
  expectSymbol script .rightParen
  return ⟨name, type, values, (← get).cursor⟩

/-- The values are run through once the header was read. -/
theorem traversal_eq (script : Script) (evaluator : Evaluator) (fuel : Nat) :
    traversal script evaluator fuel = (do
      let loop ← loopHeader script evaluator.expression
      traverse script evaluator loop.name loop.type loop.bodyStart fuel loop.values none) := by
  unfold traversal loopHeader
  simp only [bind_assoc, pure_bind]

/-- What the expressions in the header of a loop, evaluated from one machine on, give it to run through:
the elements that the array has then, the characters of the text, or the numbers of the range. -/
inductive RunsThrough (script : Script) (expression : Exec Value) (machine : Machine) :
    Iteration → Machine → Prop
  | array {address : Address} {last : Machine} (evaluated : expression machine = .ok (.array address) last)
      (alone : script.kindAt last.cursor ≠ .symbol .dotDot) :
      RunsThrough script expression machine (.listed (last.heap.items address).toList) last
  | text {text : String} {last : Machine} (evaluated : expression machine = .ok (.string text) last)
      (alone : script.kindAt last.cursor ≠ .symbol .dotDot) :
      RunsThrough script expression machine (.listed (text.toList.map .char)) last
  | range {lower upper : Decimal} {middle last : Machine}
      (first : expression machine = .ok (.number lower) middle)
      (dots : script.kindAt middle.cursor = .symbol .dotDot)
      (second : expression { middle with cursor := middle.cursor + 1 } = .ok (.number upper) last)
      (alone : script.kindAt last.cursor ≠ .symbol .dotDot) :
      RunsThrough script expression machine (.counted (.start lower upper .one)) last
  | steppedRange {lower upper step : Decimal} {middle late last : Machine}
      (first : expression machine = .ok (.number lower) middle)
      (dots : script.kindAt middle.cursor = .symbol .dotDot)
      (second : expression { middle with cursor := middle.cursor + 1 } = .ok (.number upper) late)
      (moreDots : script.kindAt late.cursor = .symbol .dotDot)
      (third : expression { late with cursor := late.cursor + 1 } = .ok (.number step) last)
      (moves : step.isZero = false) :
      RunsThrough script expression machine (.counted (.start lower upper step)) last

theorem RunsThrough.array_eq {script : Script} {expression : Exec Value} {machine last closing : Machine}
    {values : Iteration} {address : Address} (source : RunsThrough script expression machine values closing)
    (evaluated : expression machine = .ok (.array address) last) :
    values = .listed (last.heap.items address).toList := by
  cases source with
  | array given =>
      rw [evaluated] at given
      cases given
      rfl
  | text given | range given | steppedRange given =>
      rw [evaluated] at given
      cases given

theorem boundOf_ok {value : Value} {position : Position} {machine final : Machine} {number : Decimal}
    (read : boundOf value position machine = .ok number final) :
    value = .number number ∧ final = machine := by
  unfold boundOf at read
  split at read
  · cases read
    exact ⟨rfl, rfl⟩
  · exact absurd read bind_refuse_ne_ok

theorem iterationOver_ok {script : Script} {expression : Exec Value} {value : Value}
    {position : Position} {machine last final : Machine} {values : Iteration}
    (evaluated : expression machine = .ok value last)
    (alone : script.kindAt last.cursor ≠ .symbol .dotDot)
    (read : iterationOver value position last = .ok values final) :
    RunsThrough script expression machine values final := by
  unfold iterationOver at read
  split at read
  · cases read
    exact .array evaluated alone
  · cases read
    exact .text evaluated alone
  · exact absurd read bind_refuse_ne_ok

theorem rangeStep_ok {script : Script} {expression : Exec Value} {machine final : Machine} {step : Value}
    {position : Position} (read : rangeStep script expression machine = .ok (step, position) final) :
    (script.kindAt machine.cursor ≠ .symbol .dotDot ∧ step = .number .one ∧ final = machine) ∨
      (script.kindAt machine.cursor = .symbol .dotDot ∧
        expression { machine with cursor := machine.cursor + 1 } = .ok step final) := by
  obtain ⟨stepped, middle, looked, rest⟩ := bind_ok read
  rcases accept_ok (by simp) looked with ⟨rfl, dots, rfl⟩ | ⟨rfl, alone, rfl⟩
  · obtain ⟨value, last, evaluated, given⟩ := bind_ok (current_bind_ok rest)
    cases given
    exact .inr ⟨dots, evaluated⟩
  · rw [if_neg Bool.false_ne_true] at rest
    cases rest
    exact .inl ⟨alone, rfl, rfl⟩

theorem iteration_ok {script : Script} {expression : Exec Value} {machine final : Machine}
    {values : Iteration} (read : iteration script expression machine = .ok values final) :
    RunsThrough script expression machine values final := by
  obtain ⟨first, middle, evaluated, rest⟩ := bind_ok (current_bind_ok read)
  obtain ⟨ranged, behind, looked, rest⟩ := bind_ok rest
  -- The checks of the bounds come last and change nothing, so each machine is one that an expression left.
  rcases accept_ok (by simp) looked with ⟨rfl, dots, there⟩ | ⟨rfl, alone, there⟩
  · obtain ⟨second, late, evaluatedSecond, rest⟩ := bind_ok (current_bind_ok rest)
    rw [there] at evaluatedSecond
    obtain ⟨⟨step, position⟩, last, readStep, rest⟩ := bind_ok rest
    obtain ⟨lower, same, bounded, rest⟩ := bind_ok rest
    obtain ⟨firstNumber, unmoved⟩ := boundOf_ok bounded
    rw [unmoved] at rest
    obtain ⟨upper, same, bounded, rest⟩ := bind_ok rest
    obtain ⟨secondNumber, unmoved⟩ := boundOf_ok bounded
    rw [unmoved] at rest
    obtain ⟨distance, same, bounded, rest⟩ := bind_ok rest
    obtain ⟨stepNumber, unmoved⟩ := boundOf_ok bounded
    rw [unmoved] at rest
    obtain ⟨moves, rest⟩ := guarded_ok rest
    obtain ⟨rfl, rfl⟩ := pure_ok rest
    rw [firstNumber] at evaluated
    rw [secondNumber] at evaluatedSecond
    rw [stepNumber] at readStep
    rcases rangeStep_ok readStep with ⟨alone, one, rfl⟩ | ⟨moreDots, evaluatedThird⟩
    · cases one
      exact .range evaluated dots evaluatedSecond alone
    · exact .steppedRange evaluated dots evaluatedSecond moreDots evaluatedThird (by simpa using moves)
  · rw [there] at rest
    exact iterationOver_ok evaluated alone rest

/-- The parts of a header that was read: the name of the variable stands behind the parenthesis and its
type behind the colon; six tokens stand before what the loop runs through, and one behind it. -/
theorem loopHeader_ok {script : Script} {expression : Exec Value} {machine opened : Machine} {loop : Loop}
    (read : loopHeader script expression machine = .ok loop opened) :
    loop.name = script.tokenAt (machine.cursor + 2) ∧
      script.typeAt (machine.cursor + 4) = .ok loop.type ∧ loop.bodyStart = opened.cursor ∧
      ∃ closing, opened = { closing with cursor := closing.cursor + 1 } ∧
        RunsThrough script expression { machine with cursor := machine.cursor + 6 } loop.values
          closing := by
  obtain ⟨-, read⟩ := expect_bind_ok (by simp) read
  obtain ⟨-, read⟩ := expectSymbol_bind_ok read
  obtain ⟨-, read⟩ := expect_bind_ok (by simp) read
  obtain ⟨-, read⟩ := expectSymbol_bind_ok read
  obtain ⟨type, _, readAs, read⟩ := bind_ok read
  obtain ⟨typed, rfl⟩ := readType_ok readAs
  obtain ⟨-, read⟩ := expect_bind_ok (by simp) read
  obtain ⟨values, closing, readValues, read⟩ := bind_ok read
  obtain ⟨-, read⟩ := expectSymbol_bind_ok read
  cases read
  exact ⟨rfl, typed, rfl, closing, rfl, iteration_ok readValues⟩

theorem loopHeader_kept {script : Script} {evaluator : Evaluator} (keeps : evaluator.KeepsControl) :
    Keeps (ControlKept []) (loopHeader script evaluator.expression) := by
  refine controlDiscipline.bind (controlDiscipline.expect script _) fun _ => ?_
  refine controlDiscipline.bind (controlDiscipline.expectSymbol script _) fun _ => ?_
  refine controlDiscipline.bind (controlDiscipline.expect script _) fun name => ?_
  refine controlDiscipline.bind (controlDiscipline.expectSymbol script _) fun _ => ?_
  refine controlDiscipline.bind (controlDiscipline.readType script) fun type => ?_
  refine controlDiscipline.bind (controlDiscipline.expect script _) fun _ => ?_
  refine controlDiscipline.bind (controlDiscipline.iteration script keeps.expression) fun values => ?_
  refine controlDiscipline.bind (controlDiscipline.expectSymbol script _) fun _ => ?_
  exact controlDiscipline.bind controlDiscipline.get fun _ => controlDiscipline.pure _

/-! ## Rounds -/

/-- One round of a loop: the machine before it, the value that the variable of the loop has in it, and how
its body ends. -/
structure Round where
  before : Machine
  value : Value
  result : EStateM.Result Failure Machine Signal

/-- The loop may go on after the round. -/
def Round.GoesOn (round : Round) : Prop :=
  ∃ inside, round.result = .ok .normal inside ∨ round.result = .ok .continuing inside

namespace Loop

/-- The machine on which the body begins: at the same place in every round, in a new scope whose only name
is the variable of the loop. -/
def entry (loop : Loop) (value : Value) (machine : Machine) : Machine :=
  { machine with
    cursor := loop.bodyStart
    scopes := machine.scopes.push ⟨[(loop.name.word, ⟨value, some loop.type, false⟩)]⟩
    loopDepth := machine.loopDepth + 1 }

/-- The machine after a round: the scope of the variable is gone. -/
def exit (machine : Machine) : Machine :=
  { machine with scopes := machine.scopes.close, loopDepth := machine.loopDepth - 1 }

/-- The round is made by the loop: the value conforms to the type of the variable, and the body is
executed from its beginning. -/
structure Makes (loop : Loop) (script : Script) (evaluator : Evaluator) (fuel : Nat) (round : Round) :
    Prop where
  conforms : round.before.heap.conforms round.value loop.type = true
  ran : bodyContent script evaluator fuel (loop.entry round.value round.before) = round.result

variable (loop : Loop) (script : Script) (evaluator : Evaluator)

/-- How a loop goes from one machine on: the rounds it makes, what it has not run through, and what it
comes to. The place is where the body is known to end; the first round that ends normally shows it. -/
inductive Course : Nat → Option Nat → Iteration → Machine → List Round → Iteration →
    EStateM.Result Failure Machine Signal → Prop
  | exhausted {known : Option Nat} {values : Iteration} {machine : Machine} :
      Course 0 known values machine [] values (.error .exhausted machine)
  | through {fuel : Nat} {known : Option Nat} {values : Iteration} {machine : Machine}
      (none : values.next? = .ok none) :
      Course (fuel + 1) known values machine [] values (leaveLoop script loop.bodyStart known machine)
  | refused {fuel : Nat} {known : Option Nat} {values : Iteration} {machine : Machine}
      {refusal : Decimal.Refusal} (none : values.next? = .error refusal) :
      Course (fuel + 1) known values machine [] values (.error (.ofStep refusal) machine)
  | unfit {fuel : Nat} {known : Option Nat} {values rest : Iteration} {machine : Machine} {value : Value}
      (next : values.next? = .ok (some (value, rest)))
      (other : machine.heap.conforms value loop.type = false) :
      Course (fuel + 1) known values machine [] values
        (.error (.diagnostic ⟨.loopMismatch loop.type (machine.heap.describe value),
          loop.name.position⟩) machine)
  | failed {fuel : Nat} {known : Option Nat} {values rest : Iteration} {round : Round}
      {failure : Failure} {inside : Machine} (next : values.next? = .ok (some (round.value, rest)))
      (made : loop.Makes script evaluator fuel round) (ended : round.result = .error failure inside) :
      Course (fuel + 1) known values round.before [round] rest (.error failure (exit inside))
  | returned {fuel : Nat} {known : Option Nat} {values rest : Iteration} {round : Round}
      {inside : Machine} (next : values.next? = .ok (some (round.value, rest)))
      (made : loop.Makes script evaluator fuel round)
      (ended : round.result = .ok .returning inside) :
      Course (fuel + 1) known values round.before [round] rest (.ok .returning (exit inside))
  | broken {fuel : Nat} {known : Option Nat} {values rest : Iteration} {round : Round}
      {inside : Machine} (next : values.next? = .ok (some (round.value, rest)))
      (made : loop.Makes script evaluator fuel round) (ended : round.result = .ok .breaking inside) :
      Course (fuel + 1) known values round.before [round] rest
        (leaveLoop script loop.bodyStart known (exit inside))
  | continued {fuel : Nat} {known : Option Nat} {values rest last : Iteration} {round : Round}
      {inside : Machine} {rounds : List Round} {outcome : EStateM.Result Failure Machine Signal}
      (next : values.next? = .ok (some (round.value, rest)))
      (made : loop.Makes script evaluator fuel round) (ended : round.result = .ok .continuing inside)
      (others : Course fuel known rest (exit inside) rounds last outcome) :
      Course (fuel + 1) known values round.before (round :: rounds) last outcome
  | normal {fuel : Nat} {known : Option Nat} {values rest last : Iteration} {round : Round}
      {inside : Machine} {rounds : List Round} {outcome : EStateM.Result Failure Machine Signal}
      (next : values.next? = .ok (some (round.value, rest)))
      (made : loop.Makes script evaluator fuel round) (ended : round.result = .ok .normal inside)
      (others : Course fuel (known.or (some inside.cursor)) rest (exit inside) rounds last outcome) :
      Course (fuel + 1) known values round.before (round :: rounds) last outcome

variable {script} {evaluator}

theorem nextOf_of_ok {values : Iteration} {found : Option (Value × Iteration)}
    (next : values.next? = .ok found) (machine : Machine) :
    nextOf values machine = .ok found machine := by
  rw [nextOf, next]
  rfl

theorem noteEnd_normal (known : Option Nat) (machine : Machine) :
    noteEnd known .normal machine = .ok (known.or (some machine.cursor)) machine := by
  cases known <;> rfl

theorem noteEnd_other (known : Option Nat) (signal : Signal) (other : signal ≠ .normal)
    (machine : Machine) : noteEnd known signal machine = .ok known machine := by
  cases known with
  | some finish => rfl
  | none =>
      cases signal with
      | normal => exact absurd rfl other
      | breaking | continuing | returning => rfl

theorem iterate_eq (value : Value) (fuel : Nat) (machine : Machine) :
    iterate script evaluator ⟨[(loop.name.word, ⟨value, some loop.type, false⟩)]⟩ fuel
        { machine with cursor := loop.bodyStart } =
      ensuring exit (bodyContent script evaluator fuel) (loop.entry value machine) := by
  change ensuring _ (ensuring closeScope (bodyContent script evaluator fuel)) (loop.entry value machine) = _
  unfold ensuring
  cases bodyContent script evaluator fuel (loop.entry value machine) <;> rfl

/-- After a round the scopes, the calls and the count of loops are as before. -/
theorem Makes.kept {loop : Loop} {fuel : Nat} {round : Round} (keeps : evaluator.KeepsControl)
    (made : loop.Makes script evaluator fuel round) :
    ControlKept [] round.before (exit (finalOf round.result)) := by
  have kept := controlDiscipline.iterate script keeps
    ⟨[(loop.name.word, ⟨round.value, some loop.type, false⟩)]⟩ fuel
    { round.before with cursor := loop.bodyStart }
  rw [iterate_eq, finalOf_ensuring, made.ran] at kept
  exact ⟨kept.depth, kept.innermost, kept.outer, kept.suspended, kept.frames, kept.loopDepth⟩

/-- What the loop does with a value that conforms to the type of its variable. -/
theorem traverse_round {fuel : Nat} {known : Option Nat} {values rest : Iteration} {machine : Machine}
    {value : Value} (next : values.next? = .ok (some (value, rest)))
    (fits : machine.heap.conforms value loop.type = true) :
    traverse script evaluator loop.name loop.type loop.bodyStart (fuel + 1) values known machine =
      (do
        let signal ← ensuring exit (bodyContent script evaluator fuel)
        let known ← noteEnd known signal
        match signal with
        | .breaking => leaveLoop script loop.bodyStart known
        | .returning => return .returning
        | _ => traverse script evaluator loop.name loop.type loop.bodyStart fuel rest known)
        (loop.entry value machine) := by
  have tested : conforms value loop.type machine = .ok true machine := by
    rw [← fits]
    rfl
  rw [traverse, bind_of_ok (nextOf_of_ok next machine)]
  dsimp only
  rw [bind_of_ok tested, if_neg (by decide)]
  have moved : moveTo loop.bodyStart machine = .ok () { machine with cursor := loop.bodyStart } := rfl
  rw [bind_of_ok moved]
  exact bind_of_same (loop.iterate_eq value fuel machine) _

/-- A loop that goes on as it should after a round goes as it should with the round. -/
theorem round_course {fuel : Nat} {known : Option Nat} {values rest : Iteration} {machine : Machine}
    {value : Value} (next : values.next? = .ok (some (value, rest)))
    (fits : machine.heap.conforms value loop.type = true)
    (goesOn : ∀ known machine, ∃ rounds last, loop.Course script evaluator fuel known rest machine
      rounds last (traverse script evaluator loop.name loop.type loop.bodyStart fuel rest known machine)) :
    ∃ rounds last, loop.Course script evaluator (fuel + 1) known values machine rounds last
      (traverse script evaluator loop.name loop.type loop.bodyStart (fuel + 1) values known machine) := by
  let round : Round := ⟨machine, value, bodyContent script evaluator fuel (loop.entry value machine)⟩
  have made : loop.Makes script evaluator fuel round := ⟨fits, rfl⟩
  rw [loop.traverse_round next fits]
  cases ended : bodyContent script evaluator fuel (loop.entry value machine) with
  | error failure inside =>
      rw [bind_of_error (ensuring_of_error ended)]
      exact ⟨[round], rest, .failed next made ended⟩
  | ok signal inside =>
      rw [bind_of_ok (ensuring_of_ok ended)]
      cases signal with
      | breaking =>
          rw [bind_of_ok (noteEnd_other known .breaking nofun _)]
          exact ⟨[round], rest, .broken next made ended⟩
      | returning =>
          rw [bind_of_ok (noteEnd_other known .returning nofun _)]
          exact ⟨[round], rest, .returned next made ended⟩
      | continuing =>
          rw [bind_of_ok (noteEnd_other known .continuing nofun _)]
          obtain ⟨rounds, last, others⟩ := goesOn known (exit inside)
          exact ⟨round :: rounds, last, .continued next made ended others⟩
      | normal =>
          rw [bind_of_ok (noteEnd_normal known _)]
          obtain ⟨rounds, last, others⟩ := goesOn (known.or (some inside.cursor)) (exit inside)
          exact ⟨round :: rounds, last, .normal next made ended others⟩

theorem traverse_course (fuel : Nat) (known : Option Nat) (values : Iteration) (machine : Machine) :
    ∃ rounds rest, loop.Course script evaluator fuel known values machine rounds rest
      (traverse script evaluator loop.name loop.type loop.bodyStart fuel values known machine) := by
  induction fuel generalizing known values machine with
  | zero => exact ⟨[], values, .exhausted⟩
  | succ fuel ih =>
      cases next : values.next? with
      | error refusal =>
          have failed : nextOf values machine = .error (.ofStep refusal) machine := by
            rw [nextOf, next]
            rfl
          rw [traverse, bind_of_error failed]
          exact ⟨[], values, .refused next⟩
      | ok found =>
          have given := nextOf_of_ok next machine
          cases found with
          | none =>
              rw [traverse, bind_of_ok given]
              exact ⟨[], values, .through next⟩
          | some step =>
              obtain ⟨value, rest⟩ := step
              cases fits : machine.heap.conforms value loop.type with
              | false =>
                  have tested : conforms value loop.type machine = .ok false machine := by
                    rw [← fits]
                    rfl
                  rw [traverse, bind_of_ok given]
                  dsimp only
                  rw [bind_of_ok tested]
                  exact ⟨[], values, .unfit next fits⟩
              | true => exact loop.round_course next fits fun known machine => ih known rest machine

namespace Course

variable {loop} {fuel : Nat} {known : Option Nat} {values rest : Iteration} {machine : Machine}
  {rounds : List Round} {outcome : EStateM.Result Failure Machine Signal}
  (course : loop.Course script evaluator fuel known values machine rounds rest outcome)

include course

/-- The values of the rounds are those that the loop had to run through, in their order. -/
theorem produces : values.Produces (rounds.map Round.value) rest := by
  induction course with
  | exhausted | through | refused | unfit => exact .nothing _
  | failed next | returned next | broken next => exact .next next (.nothing _)
  | continued next _ _ _ ih | normal next _ _ _ ih => exact .next next ih

theorem makes : ∀ round ∈ rounds, ∃ left, loop.Makes script evaluator left round := by
  induction course with
  | exhausted | through | refused | unfit => exact List.forall_mem_nil _
  | failed _ made | returned _ made | broken _ made => exact List.forall_mem_singleton.2 ⟨_, made⟩
  | continued _ made _ _ ih | normal _ made _ _ ih => exact List.forall_mem_cons.2 ⟨⟨_, made⟩, ih⟩

/-- Nothing that a round declares is left when the next one begins. -/
theorem kept (keeps : evaluator.KeepsControl) :
    ∀ round ∈ rounds, ControlKept [] machine round.before := by
  induction course with
  | exhausted | through | refused | unfit => exact List.forall_mem_nil _
  | failed | returned | broken => exact List.forall_mem_singleton.2 (.refl _)
  | continued _ made ended _ ih | normal _ made ended _ ih =>
      have left := made.kept keeps
      rw [ended] at left
      exact List.forall_mem_cons.2 ⟨.refl _, fun later member => left.trans (ih later member)⟩

/-- Only the last round may end otherwise than normally or with a `continue`. -/
theorem goesOn : ∀ round ∈ rounds.dropLast, round.GoesOn := by
  induction course with
  | exhausted | through | refused | unfit | failed | returned | broken => exact List.forall_mem_nil _
  -- Whether the round is the last one is for the rounds behind it to say.
  | @continued _ _ _ _ _ round inside rounds _ _ _ ended _ ih =>
      cases rounds with
      | nil => exact List.forall_mem_nil _
      | cons second others => exact List.forall_mem_cons.2 ⟨⟨inside, .inr ended⟩, ih⟩
  | @normal _ _ _ _ _ round inside rounds _ _ _ ended _ ih =>
      cases rounds with
      | nil => exact List.forall_mem_nil _
      | cons second others => exact List.forall_mem_cons.2 ⟨⟨inside, .inl ended⟩, ih⟩

/-- If no round ends the loop, all values are run through, unless it fails between two rounds. -/
theorem through_or_failed (all : ∀ round ∈ rounds, round.GoesOn) :
    rest.next? = .ok none ∨ ∃ failure final, outcome = .error failure final := by
  induction course with
  | through none => exact .inl none
  | exhausted | refused | unfit | failed => exact .inr ⟨_, _, rfl⟩
  | returned _ _ ended | broken _ _ ended =>
      obtain ⟨inside, normal | continuing⟩ := all _ List.mem_cons_self
      · rw [ended] at normal
        cases normal
      · rw [ended] at continuing
        cases continuing
  | continued _ _ _ _ ih | normal _ _ _ _ ih => exact ih (List.forall_mem_cons.1 all).2

/-- A `break` ends the loop. -/
theorem left_by_break {round : Round} (member : round ∈ rounds) {inside : Machine}
    (breaks : round.result = .ok .breaking inside) :
    ∃ known, outcome = leaveLoop script loop.bodyStart known (exit inside) := by
  induction course with
  | exhausted | through | refused | unfit => cases member
  | failed _ _ ended | returned _ _ ended =>
      obtain rfl := List.mem_singleton.1 member
      rw [ended] at breaks
      cases breaks
  | broken _ _ ended =>
      obtain rfl := List.mem_singleton.1 member
      rw [ended] at breaks
      cases breaks
      exact ⟨_, rfl⟩
  | continued _ _ ended _ ih | normal _ _ ended _ ih =>
      rcases List.mem_cons.1 member with rfl | member
      · rw [ended] at breaks
        cases breaks
      · exact ih member

end Course

end Loop

/-! ## Whole loops -/

/-- What a loop over an array, a text or a range runs through is fixed when its header was evaluated, and
nothing that the loop declares outlives it. Either its header fails, or its rounds get the elements of the
array, nested arrays by their addresses, the characters of the text or the numbers of the range, in order
and as they were then. Every round begins at the same place, in a new scope with the variable of the loop
as its only name, on top of scopes that have the names from before the loop. Rounds that end normally or
with a `continue` are followed by others until all values are run through or the loop fails; a `break`
leaves the loop, and is in its last round. -/
theorem rounds_fixed_at_entry (script : Script) (verbosity fuel : Nat) (machine : Machine)
    (loops : script.kindAt machine.cursor = .keyword .forWord) :
    let evaluator := Exec.evaluator script verbosity fuel
    let begun := observed script verbosity machine
    let outcome := statement script verbosity (fuel + 1) machine
    ControlKept [] machine (finalOf outcome) ∧
      ((∃ failure final, loopHeader script evaluator.expression begun = .error failure final ∧
          outcome = .error failure final) ∨
        ∃ (loop : Loop) (closing : Machine) (rounds : List Round) (rest : Iteration),
          let opened := { closing with cursor := closing.cursor + 1 }
          loopHeader script evaluator.expression begun = .ok loop opened ∧
          loop.name = script.tokenAt (machine.cursor + 2) ∧
          script.typeAt (machine.cursor + 4) = .ok loop.type ∧ loop.bodyStart = opened.cursor ∧
          RunsThrough script evaluator.expression { begun with cursor := machine.cursor + 6 } loop.values
            closing ∧
          loop.values.Produces (rounds.map Round.value) rest ∧
          (∀ round ∈ rounds, ControlKept [] machine round.before ∧
            ∃ left, loop.Makes script evaluator left round) ∧
          (∀ round ∈ rounds.dropLast, round.GoesOn) ∧
          ((∀ round ∈ rounds, round.GoesOn) →
            rest.next? = .ok none ∨ ∃ failure final, outcome = .error failure final) ∧
          (∀ round ∈ rounds, ∀ inside, round.result = .ok .breaking inside →
            ∃ known, outcome = leaveLoop script loop.bodyStart known (Loop.exit inside)) ∧
          loop.Course script evaluator fuel none loop.values opened rounds rest outcome) := by
  intro evaluator begun outcome
  have keeps : evaluator.KeepsControl := controlDiscipline.evaluates script verbosity fuel
  have performed : outcome = (loopHeader script evaluator.expression >>= fun loop =>
      traverse script evaluator loop.name loop.type loop.bodyStart fuel loop.values none) begun := by
    rw [← traversal_eq]
    change dispatch script verbosity evaluator fuel machine = _
    rw [dispatch_eq, loops]
    rfl
  have undeclaring : ¬ script.declaresVariable machine.cursor := by
    unfold Script.declaresVariable
    simp [loops]
  refine ⟨controlDiscipline.dispatch_steady script keeps verbosity fuel undeclaring, ?_⟩
  cases read : loopHeader script evaluator.expression begun with
  | error failure final =>
      rw [bind_of_error read] at performed
      exact .inl ⟨failure, final, rfl, performed⟩
  | ok loop opened =>
      obtain ⟨name, typed, start, closing, rfl, source⟩ := loopHeader_ok read
      have kept : ControlKept [] machine { closing with cursor := closing.cursor + 1 } :=
        (controlDiscipline.begins script verbosity machine).trans ((loopHeader_kept keeps).ok read)
      obtain ⟨rounds, rest, course⟩ : ∃ rounds rest, loop.Course script evaluator fuel none loop.values
          { closing with cursor := closing.cursor + 1 } rounds rest outcome := by
        rw [performed, bind_of_ok read]
        exact loop.traverse_course ..
      exact .inr ⟨loop, closing, rounds, rest, rfl, name, typed, start, source, course.produces,
        fun round member => ⟨kept.trans (course.kept keeps round member), course.makes round member⟩,
        course.goesOn, course.through_or_failed, fun _ member _ => course.left_by_break member, course⟩

/-- A loop whose body writes to the array that the loop runs through, and ends each round with a
`continue`. -/
theorem rounds_fixed_at_entry_written :
    let script := Script.ofSource
      "a: number[] = [1, 2] for (x: number in a) { a[1] = 9 y: number = x continue }".toList
    let machine := finalOf (statement script 0 30 .initial)
    let final := finalOf (statement script 0 31 machine)
    statement script 0 31 machine = .ok .normal final ∧
      final.scopes.current.signature = machine.scopes.current.signature ∧
      ∃ (rounds : List Round) (rest : Iteration),
        (Iteration.listed [.number (.ofNat 1), .number (.ofNat 2)]).Produces
          (rounds.map Round.value) rest := by
  intro script machine final
  have ran : statement script 0 31 machine = .ok .normal final := by decide +kernel
  have loops : script.kindAt machine.cursor = .keyword .forWord := by decide +kernel
  obtain ⟨kept, failed | completed⟩ := rounds_fixed_at_entry script 0 30 machine loops
  · obtain ⟨failure, stopped, -, outcome⟩ := failed
    rw [ran] at outcome
    cases outcome
  · obtain ⟨loop, closing, rounds, rest, -, -, -, -, source, values, -⟩ := completed
    let inHeader := { observed script 0 machine with cursor := machine.cursor + 6 }
    let evaluated := finalOf (expression script 0 30 inHeader)
    have array : expression script 0 30 inHeader = .ok (.array 0) evaluated := by decide +kernel
    have elements : (evaluated.heap.items 0).toList = [.number (.ofNat 1), .number (.ofNat 2)] := by
      decide +kernel
    rw [source.array_eq array, elements] at values
    exact ⟨ran, by simpa using kept.innermost, rounds, rest, values⟩

end Onepass.Exec
