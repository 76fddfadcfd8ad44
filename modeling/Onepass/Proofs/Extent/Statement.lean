import Onepass.Proofs.Control
import Onepass.Proofs.Extent.Simple

/-! # Where executed statements end

The cursor of an execution jumps: a loop puts it back, a `break` leaves it in the middle of a body, a
call leads it to another part of the script, and the bodies that are not executed are passed over.
Still, a statement that ends normally has taken a course of the kind that its first token announces,
and so a block ends at its own brace, and executing a statement and passing over it agree.
-/

set_option autoImplicit false

namespace Onepass

/-- An evaluator whose expressions are passed over as they are evaluated, and whose statements take
their course when they end normally. -/
structure Evaluator.Agrees (script : Script) (evaluator : Evaluator) : Prop where
  control : evaluator.KeepsControl
  expression : Exec.Moves script.Spans evaluator.expression
  statement : ∀ {machine final : Machine}, evaluator.statement machine = .ok .normal final →
    script.Executed machine.running machine.cursor final.cursor

theorem Machine.ControlKept.running {added : List Entry} {first last : Machine}
    (kept : first.ControlKept added last) : last.running = first.running := by
  unfold Machine.running
  rw [kept.frames]

namespace Exec

open Script (Reaches)

variable {script : Script} {evaluator : Evaluator} {machine final : Machine} {fuel : Nat}

/-! ## Bodies -/

theorem block_ends (agrees : evaluator.Agrees script)
    (ran : block script evaluator.statement fuel machine = .ok .normal final) :
    script.closingPlace .curly 1 machine.cursor = .ok final.cursor := by
  induction fuel generalizing machine with
  | zero => exact absurd ran throw_ne_ok
  | succ fuel ih =>
      have ran := currentKind_bind_ok ran
      generalize known : script.kindAt machine.cursor = kind at ran
      split at ran
      · have ran := advance_bind_ok (by rw [known]; simp) ran
        obtain ⟨-, rfl⟩ := pure_ok ran
        rw [Script.closingPlace_succ (by simp [known])]
        simp [known, Bracket.opening, Bracket.closing, Bracket.openingMark, Bracket.closingMark]
      · exact absurd (current_bind_ok ran) refuse_ne_ok
      · obtain ⟨signal, middle, executed, ran⟩ := bind_ok ran
        cases signal with
        | normal =>
            rw [(agrees.statement executed).transparent 0]
            exact ih ran
        | _ => cases ran

theorem passage_of_reaches (nested : script.WellNested) (headers : script.ClearHeaders)
    {running : Option DeclaredType} {first last : Nat}
    (reached : Reaches (script.bodyEnd running) first last) : script.Passage running first last := by
  refine ⟨?_, fun begun => ?_, reached.meets⟩
  · obtain ⟨ahead, found⟩ := reached
    exact (Script.transparent_passable nested headers).bodyEnd found
  · rwa [Reaches, Script.bodyEnd_of_brace begun] at reached

theorem body_passage (agrees : evaluator.Agrees script) {scope : Scope}
    (ran : body script evaluator scope fuel machine = .ok .normal final) :
    script.Passage machine.running machine.cursor final.cursor := by
  obtain ⟨inside, ran, closed⟩ := ensuring_ok ran
  have there : final.cursor = inside.cursor := by
    rw [closed]
    rfl
  rw [there]
  obtain ⟨braced, middle, looked, rest⟩ := bind_ok ran
  rcases accept_ok (by simp) looked with ⟨rfl, begun, rfl⟩ | ⟨rfl, single, rfl⟩
  · have reached : Reaches script.bracesEnd machine.cursor inside.cursor :=
      Script.reaches_balancedEnd_iff.mpr ⟨begun, block_ends agrees rest⟩
    refine ⟨.balanced reached, fun _ => reached, Script.Reaches.meets ?_⟩
    rwa [Reaches, Script.bodyEnd_of_brace begun]
  · have course := agrees.statement rest
    have executed : script.Executed machine.running machine.cursor inside.cursor := course
    refine ⟨executed.transparent, fun begun => absurd begun single, ?_⟩
    refine executed.meets.congr fun finish => ?_
    rw [Reaches, Script.bodyEnd_of_statement single]
    rfl

theorem passBody_ok {result : Unit} (ran : passBody script machine = .ok result final) :
    Reaches (script.bodyEnd machine.running) machine.cursor final.cursor ∧
      final.running = machine.running := by
  obtain ⟨reached, moved⟩ := passOver_ok (get_bind_ok ran)
  refine ⟨reached, ?_⟩
  rw [moved]
  rfl

theorem conditionInParentheses_moves (moves : Moves script.Clear evaluator.expression) :
    Moves (script.Enclosed .round) (conditionInParentheses script evaluator) := by
  refine .enclosed .round ?_ fun value => .of_unchanged (unchanged.pure value)
  intro machine final result ran
  obtain ⟨value, middle, read, ran⟩ := bind_ok (current_bind_ok ran)
  cases value with
  | boolean value =>
      obtain ⟨-, rfl⟩ := pure_ok ran
      exact moves read
  | _ =>
      exact absurd ran bind_refuse_ne_ok

/-! ## Conditionals -/

theorem condition_read (agrees : evaluator.Agrees script) {holds : Bool} {middle : Machine}
    (read : conditionInParentheses script evaluator machine = .ok holds middle) :
    script.Enclosed .round machine.cursor middle.cursor ∧ middle.running = machine.running :=
  ⟨conditionInParentheses_moves (agrees.expression.weaken fun spans => spans.clear) read,
    ((controlDiscipline.conditionInParentheses script agrees.control).ok read).running⟩

theorem body_running (agrees : evaluator.Agrees script) {scope : Scope} {signal : Signal}
    (ran : body script evaluator scope fuel machine = .ok signal final) :
    final.running = machine.running :=
  ((controlDiscipline.body script agrees.control scope fuel).ok ran).running

theorem branches_course (nested : script.WellNested) (headers : script.ClearHeaders)
    (agrees : evaluator.Agrees script) {taken : Bool}
    (ran : branches script evaluator fuel taken machine = .ok .normal final) :
    script.Branches machine.running machine.cursor final.cursor := by
  induction fuel generalizing taken machine with
  | zero => exact absurd ran throw_ne_ok
  | succ fuel ih =>
      obtain ⟨more, middle, looked, rest⟩ := bind_ok ran
      rcases accept_ok (by simp) looked with ⟨rfl, begun, rfl⟩ | ⟨rfl, notElseIf, rfl⟩
      · obtain ⟨holds, header, read, rest⟩ := bind_ok rest
        obtain ⟨condition, running⟩ := condition_read agrees read
        split at rest
        · obtain ⟨signal, after, executed, rest⟩ := bind_ok rest
          cases signal with
          | normal =>
              have passage := body_passage agrees executed
              have others := ih rest
              rw [body_running agrees executed, running] at others
              rw [running] at passage
              exact .another begun condition passage others
          | _ => cases rest
        · obtain ⟨_, after, passed, rest⟩ := bind_ok rest
          obtain ⟨reached, same⟩ := passBody_ok passed
          have others := ih rest
          rw [same, running] at others
          rw [running] at reached
          exact .another begun condition (passage_of_reaches nested headers reached) others
      · obtain ⟨last, middle, looked, finished⟩ := bind_ok rest
        rcases accept_ok (by simp) looked with ⟨rfl, begun, rfl⟩ | ⟨rfl, notElse, rfl⟩
        · cases taken with
          | true =>
              obtain ⟨_, after, passed, finished⟩ := bind_ok finished
              obtain ⟨reached, -⟩ := passBody_ok passed
              obtain ⟨-, rfl⟩ := pure_ok finished
              exact .otherwise begun (passage_of_reaches nested headers reached)
          | false => exact .otherwise begun (body_passage agrees finished)
        · obtain ⟨-, rfl⟩ := pure_ok finished
          exact .finished notElseIf notElse

theorem conditional_course (nested : script.WellNested) (headers : script.ClearHeaders)
    (agrees : evaluator.Agrees script)
    (ran : conditional script evaluator fuel machine = .ok .normal final) :
    script.Executed machine.running machine.cursor final.cursor := by
  obtain ⟨begun, ran⟩ := expect_bind_ok (by simp) ran
  obtain ⟨holds, header, read, ran⟩ := bind_ok ran
  obtain ⟨condition, running⟩ := condition_read agrees read
  cases holds with
  | true =>
      obtain ⟨signal, after, executed, rest⟩ := bind_ok ran
      cases signal with
      | normal =>
          have passage := body_passage agrees executed
          have others := branches_course nested headers agrees rest
          rw [body_running agrees executed, running] at others
          rw [running] at passage
          exact .conditional begun condition passage others
      | _ => cases rest
  | false =>
      obtain ⟨_, after, passed, rest⟩ := bind_ok ran
      obtain ⟨reached, same⟩ := passBody_ok passed
      have others := branches_course nested headers agrees rest
      rw [same, running] at others
      rw [running] at reached
      exact .conditional begun condition (passage_of_reaches nested headers reached) others

/-! ## Loops -/

/-- The place where a loop goes on is the end of a body that was executed or passed over. -/
theorem leaveLoop_passage (nested : script.WellNested) (headers : script.ClearHeaders)
    {bodyStart : Nat} {known : Option Nat} {signal : Signal}
    (noted : ∀ finish, known = some finish → script.Passage machine.running bodyStart finish)
    (ran : leaveLoop script bodyStart known machine = .ok signal final) :
    script.Passage machine.running bodyStart final.cursor := by
  cases known with
  | some finish =>
      cases ran
      exact noted finish rfl
  | none =>
      obtain ⟨finish, middle, passed, ran⟩ := bind_ok ran
      have passed := get_bind_ok passed
      cases found : script.bodyEnd machine.running bodyStart with
      | error diagnostic =>
          rw [found] at passed
          cases passed
      | ok next =>
          rw [found] at passed
          cases passed
          cases ran
          exact passage_of_reaches nested headers (Script.reaches_of_ok found)

/-- An iteration of a loop keeps the running function, and a normal one shows where the body ends. -/
theorem iterate_passage (agrees : evaluator.Agrees script) {scope : Scope} {signal : Signal}
    (ran : iterate script evaluator scope fuel machine = .ok signal final) :
    final.running = machine.running ∧
      (signal = .normal → script.Passage machine.running machine.cursor final.cursor) := by
  refine ⟨((controlDiscipline.iterate script agrees.control scope fuel).ok ran).running, ?_⟩
  rintro rfl
  obtain ⟨inside, executed, restored⟩ := ensuring_ok ran
  have passage := body_passage agrees executed
  rw [restored]
  exact passage

theorem noteEnd_known {known next : Option Nat} {signal : Signal}
    (ran : noteEnd known signal machine = .ok next final) :
    final = machine ∧ ∀ finish, next = some finish →
      known = some finish ∨ signal = .normal ∧ finish = machine.cursor := by
  unfold noteEnd at ran
  split at ran
  · have ran := get_bind_ok ran
    obtain ⟨rfl, rfl⟩ := pure_ok ran
    refine ⟨rfl, fun finish noted => .inr ⟨rfl, (Option.some.inj noted).symm⟩⟩
  · obtain ⟨rfl, rfl⟩ := pure_ok ran
    exact ⟨rfl, fun finish noted => .inl noted⟩

theorem traverse_passage (nested : script.WellNested) (headers : script.ClearHeaders)
    (agrees : evaluator.Agrees script) {name : Token} {type : DeclaredType} {bodyStart : Nat}
    {iteration : Iteration} {known : Option Nat}
    (noted : ∀ finish, known = some finish → script.Passage machine.running bodyStart finish)
    (ran : traverse script evaluator name type bodyStart fuel iteration known machine =
      .ok .normal final) :
    script.Passage machine.running bodyStart final.cursor := by
  induction fuel generalizing iteration known machine with
  | zero => exact absurd ran throw_ne_ok
  | succ fuel ih =>
      obtain ⟨next, same, looked, ran⟩ := bind_ok ran
      rw [(unchanged.nextOf iteration).ok looked] at ran
      cases next with
      | none => exact leaveLoop_passage nested headers noted ran
      | some step =>
          obtain ⟨value, others⟩ := step
          obtain ⟨fits, same, tested, ran⟩ := bind_ok ran
          rw [(unchanged.conforms value type).ok tested] at ran
          split at ran
          · obtain ⟨_, _, _, ran⟩ := bind_ok ran
            obtain ⟨_, _, refused, _⟩ := bind_ok ran
            exact absurd refused refuse_ne_ok
          · obtain ⟨signal, after, iterated, ran⟩ := bind_ok (moveTo_bind_ok ran)
            obtain ⟨found, same, observed, finished⟩ := bind_ok ran
            obtain ⟨running, shown⟩ := iterate_passage agrees iterated
            obtain ⟨rfl, noticed⟩ := noteEnd_known observed
            have known (finish : Nat) (there : found = some finish) :
                script.Passage same.running bodyStart finish := by
              rw [running]
              rcases noticed finish there with before | ⟨normal, rfl⟩
              · exact noted finish before
              · exact shown normal
            have restored : same.running = machine.running := running
            rw [← restored]
            cases signal with
            | breaking => exact leaveLoop_passage nested headers known finished
            | returning => cases finished
            | normal => exact ih known finished
            | continuing => exact ih known finished

theorem rangeStep_moves {expression : Exec Value} (moves : Moves script.Clear expression) :
    Moves script.Clear (rangeStep script expression) := by
  intro machine final result ran
  obtain ⟨more, middle, looked, rest⟩ := bind_ok ran
  rcases accept_ok (by simp) looked with ⟨rfl, dots, rfl⟩ | ⟨rfl, -, rfl⟩
  · obtain ⟨value, after, read, finished⟩ := bind_ok (current_bind_ok rest)
    obtain ⟨-, rfl⟩ := pure_ok finished
    exact (Script.Clear.token (by rw [dots]; rfl)).trans (moves read)
  · rw [if_neg Bool.false_ne_true] at rest
    have finished := current_bind_ok rest
    obtain ⟨-, rfl⟩ := pure_ok finished
    exact .refl _

/-- What a loop runs through is read as a row of expressions. -/
theorem iteration_moves {expression : Exec Value} (moves : Moves script.Clear expression) :
    Moves script.Clear (iteration script expression) := by
  intro machine final result ran
  obtain ⟨first, afterFirst, read, ran⟩ := bind_ok (current_bind_ok ran)
  obtain ⟨ranges, middle, looked, rest⟩ := bind_ok ran
  rcases accept_ok (by simp) looked with ⟨rfl, dots, rfl⟩ | ⟨rfl, -, rfl⟩
  · obtain ⟨last, afterLast, readLast, rest⟩ := bind_ok (current_bind_ok rest)
    obtain ⟨⟨step, position⟩, afterStep, readStep, rest⟩ := bind_ok rest
    obtain ⟨lower, same, bounded, rest⟩ := bind_ok rest
    rw [(unchanged.boundOf _ _).ok bounded] at rest
    obtain ⟨upper, same, bounded, rest⟩ := bind_ok rest
    rw [(unchanged.boundOf _ _).ok bounded] at rest
    obtain ⟨distance, same, bounded, rest⟩ := bind_ok rest
    rw [(unchanged.boundOf _ _).ok bounded] at rest
    obtain ⟨-, rest⟩ := guarded_ok rest
    obtain ⟨-, rfl⟩ := pure_ok rest
    exact (moves read)
      |>.trans (.token (by rw [dots]; rfl))
      |>.trans (moves readLast) |>.trans (rangeStep_moves moves readStep)
  · rw [(unchanged.iterationOver _ _).ok rest]
    exact moves read

theorem traversal_course (nested : script.WellNested) (headers : script.ClearHeaders)
    (agrees : evaluator.Agrees script)
    (ran : traversal script evaluator fuel machine = .ok .normal final) :
    script.Executed machine.running machine.cursor final.cursor := by
  obtain ⟨begun, ran⟩ := expect_bind_ok (by simp) ran
  obtain ⟨opened, ran⟩ := expectSymbol_bind_ok ran
  obtain ⟨named, ran⟩ := expect_bind_ok (by simp) ran
  obtain ⟨colon, ran⟩ := expectSymbol_bind_ok ran
  obtain ⟨type, afterType, readAs, rest⟩ := bind_ok ran
  obtain ⟨known, rfl⟩ := readType_ok readAs
  obtain ⟨within, rest⟩ := expect_bind_ok (by simp) rest
  obtain ⟨values, afterValues, read, rest⟩ := bind_ok rest
  obtain ⟨closed, rest⟩ := expectSymbol_bind_ok rest
  have performed := get_bind_ok rest
  have inside : script.Clear (machine.cursor + 2) afterValues.cursor :=
    (Script.Clear.token (by rw [named]; rfl))
      |>.trans (.token (by rw [colon]; rfl))
      |>.trans (.token (Kind.isOrdinary_of_type (Script.typeAt_ok known)))
      |>.trans (.token (by rw [within]; rfl))
      |>.trans (iteration_moves (agrees.expression.weaken fun spans => spans.clear) read)
  have header : script.Enclosed .round (machine.cursor + 1) (afterValues.cursor + 1) :=
    ⟨opened, afterValues.cursor, inside, closed, rfl⟩
  have running : afterValues.running = machine.running :=
    ((controlDiscipline.iteration script agrees.control.expression).ok read).running
  have passage := traverse_passage nested headers agrees (by simp) performed
  rw [← running]
  exact .loop (.inl begun) header passage

/-- A loop with a condition goes on behind its body, which the header shows the beginning of. -/
theorem leaveRepetition_passage (nested : script.WellNested) (headers : script.ClearHeaders)
    {header bodyStart : Nat} {known : Option Nat} {signal : Signal}
    (condition : script.Enclosed .round header bodyStart)
    (noted : ∀ finish, known = some finish → script.Passage machine.running bodyStart finish)
    (ran : leaveRepetition script header known machine = .ok signal final) :
    script.Passage machine.running bodyStart final.cursor := by
  cases known with
  | some finish =>
      cases ran
      exact noted finish rfl
  | none =>
      obtain ⟨ahead, found⟩ : Reaches script.parenthesesEnd header bodyStart := condition.reaches
      unfold leaveRepetition at ran
      dsimp only at ran
      rw [found] at ran
      exact leaveLoop_passage nested headers noted ran

theorem repeatWhile_passage (nested : script.WellNested) (headers : script.ClearHeaders)
    (agrees : evaluator.Agrees script) {header : Nat} {known : Option Nat}
    (noted : ∀ bodyStart finish, script.Enclosed .round header bodyStart → known = some finish →
      script.Passage machine.running bodyStart finish)
    (ran : repeatWhile script evaluator header fuel known machine = .ok .normal final) :
    ∃ bodyStart, script.Enclosed .round header bodyStart ∧
      script.Passage machine.running bodyStart final.cursor := by
  induction fuel generalizing known machine with
  | zero => exact absurd ran throw_ne_ok
  | succ fuel ih =>
      obtain ⟨holds, middle, read, ran⟩ := bind_ok (moveTo_bind_ok ran)
      obtain ⟨condition, running⟩ := condition_read agrees read
      have running : middle.running = machine.running := running
      have condition : script.Enclosed .round header middle.cursor := condition
      cases holds with
      | true =>
          obtain ⟨signal, after, iterated, ran⟩ := bind_ok ran
          obtain ⟨found, same, observed, finished⟩ := bind_ok ran
          obtain ⟨kept, shown⟩ := iterate_passage agrees iterated
          obtain ⟨rfl, noticed⟩ := noteEnd_known observed
          have restored : same.running = machine.running := kept.trans running
          have known (bodyStart finish : Nat) (enclosed : script.Enclosed .round header bodyStart)
              (there : found = some finish) : script.Passage same.running bodyStart finish := by
            rcases noticed finish there with before | ⟨normal, rfl⟩
            · rw [restored]
              exact noted bodyStart finish enclosed before
            · rw [kept, enclosed.reaches.unique condition.reaches]
              exact shown normal
          rw [← restored]
          cases signal with
          | breaking =>
              exact ⟨middle.cursor, condition, leaveRepetition_passage nested headers condition
                (fun finish => known middle.cursor finish condition) finished⟩
          | returning => cases finished
          | normal => exact ih known finished
          | continuing => exact ih known finished
      | false =>
          rw [← running]
          refine ⟨middle.cursor, condition, leaveRepetition_passage nested headers condition ?_ ran⟩
          intro finish there
          rw [running]
          exact noted middle.cursor finish condition there

theorem repetition_course (nested : script.WellNested) (headers : script.ClearHeaders)
    (agrees : evaluator.Agrees script)
    (ran : repetition script evaluator fuel machine = .ok .normal final) :
    script.Executed machine.running machine.cursor final.cursor := by
  obtain ⟨begun, ran⟩ := expect_bind_ok (by simp) ran
  have performed := get_bind_ok ran
  obtain ⟨bodyStart, condition, passage⟩ :=
    repeatWhile_passage nested headers agrees (by simp) performed
  exact .loop (.inr begun) condition passage

/-! ## All statements -/

theorem jump_ne_normal : jump script machine ≠ .ok .normal final := by
  intro ran
  obtain ⟨token, middle, -, ran⟩ := bind_ok ran
  obtain ⟨-, ran⟩ := guarded_ok (get_bind_ok ran)
  obtain ⟨_, after, -, ran⟩ := bind_ok ran
  obtain ⟨signal, -⟩ := pure_ok ran
  split at signal <;> cases signal

theorem returnFrom_ne_normal : returnFrom script evaluator machine ≠ .ok .normal final := by
  intro ran
  obtain ⟨token, middle, -, ran⟩ := bind_ok ran
  have ran := get_bind_ok ran
  generalize middle.frames = frames at ran
  cases frames with
  | nil => exact absurd ran refuse_ne_ok
  | cons function callers =>
      obtain ⟨value, after, -, ran⟩ := bind_ok ran
      obtain ⟨_, retagged, -, ran⟩ := bind_ok ran
      obtain ⟨_, kept, -, ran⟩ := bind_ok ran
      obtain ⟨_, ended, -, ran⟩ := bind_ok ran
      obtain ⟨signal, -⟩ := pure_ok ran
      cases signal

theorem perform_course (nested : script.WellNested) (headers : script.ClearHeaders)
    (agrees : evaluator.Agrees script) {position : Position}
    (ran : perform script evaluator fuel (script.kindAt machine.cursor) position machine =
      .ok .normal final) :
    script.Executed machine.running machine.cursor final.cursor := by
  have moves : Moves script.Clear evaluator.expression := agrees.expression.weaken fun spans => spans.clear
  generalize known : script.kindAt machine.cursor = kind at ran
  unfold perform at ran
  split at ran
  · exact simple_executed (by rw [known]; rfl) (by simp [known])
      (printValues_unterminated moves (.inl known)) ran
  · exact simple_executed (by rw [known]; rfl) (by simp [known])
      (printValues_unterminated moves (.inr known)) ran
  · exact conditional_course nested headers agrees ran
  · exact traversal_course nested headers agrees ran
  · exact repetition_course nested headers agrees ran
  · exact simple_executed (by rw [known]; rfl) (by simp [known])
      (functionDeclaration_unterminated headers known) ran
  · exact absurd ran returnFrom_ne_normal
  · exact absurd ran jump_ne_normal
  · exact absurd ran jump_ne_normal
  · exact .block known ((body_passage agrees ran).braced known)
  · exact simple_executed (by rw [known]; rfl) (by simp [known])
      (constant_unterminated agrees.expression known) ran
  · exact simple_executed (by rw [known]; rfl) (by simp [known])
      (namedStatement_unterminated agrees.expression known) ran
  · exact empty_executed known ran
  · exact absurd ran refuse_ne_ok

/-- A statement that ends normally takes the course that its first token announces. -/
theorem statement_course (nested : script.WellNested) (headers : script.ClearHeaders)
    (verbosity : Nat) (ran : statement script verbosity fuel machine = .ok .normal final) :
    script.Executed machine.running machine.cursor final.cursor := by
  induction fuel generalizing machine final with
  | zero => cases ran
  | succ fuel ih =>
      have agrees : (Exec.evaluator script verbosity fuel).Agrees script :=
        ⟨controlDiscipline.evaluates script verbosity fuel, expression_moves script verbosity fuel, ih⟩
      have performed : perform script (Exec.evaluator script verbosity fuel) fuel
          (script.kindAt (observed script verbosity machine).cursor)
          (script.tokenAt machine.cursor).position (observed script verbosity machine) =
            .ok .normal final := ran
      have course := perform_course nested headers agrees performed
      exact course

end Exec

end Onepass
