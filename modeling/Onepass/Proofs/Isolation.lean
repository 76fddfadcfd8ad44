import Onepass.Proofs.Lockstep.Statement

/-! # A call does not see its caller

A function is executed with the global scope and scopes of its own. So two calls of it on machines
with the same globals, functions, arrays and output do the same, whatever the local scopes of the
callers hold, wherever their cursors stand and however many loops they are in; and each caller finds
all of that unchanged when the call is over.
-/

set_option autoImplicit false

namespace Onepass

/-- Two machines have the same globals, functions, arrays and output, and as many active calls. -/
structure Machine.Shares (first second : Machine) : Prop where
  globals : first.scopes.globals = second.scopes.globals
  functions : first.functions = second.functions
  heap : first.heap = second.heap
  output : first.output = second.output
  depth : first.frames.length = second.frames.length

/-- What belongs to a caller is the same on two machines: the local scopes with all their names, types,
flags and values, those put aside by earlier callers, the cursor, the loop count and the active
calls. -/
structure Machine.SameCaller (before after : Machine) : Prop where
  locals : after.scopes.locals = before.scopes.locals
  suspended : after.scopes.suspended = before.scopes.suspended
  cursor : after.cursor = before.cursor
  loopDepth : after.loopDepth = before.loopDepth
  frames : after.frames = before.frames

/-- Two machines inside calls that were made from two others: they agree and have written the same, and
what they have put aside differs only in what the two callers have. -/
structure Machine.Inside (first second inside within : Machine) : Prop where
  agree : inside.Agree within
  output : inside.output = within.output
  suspended : ∃ own, inside.scopes.suspended = own ++ first.scopes.locals :: first.scopes.suspended ∧
    within.scopes.suspended = own ++ second.scopes.locals :: second.scopes.suspended
  frames : ∃ active, inside.frames = active ++ first.frames ∧ within.frames = active ++ second.frames

namespace Coupling

/-- Machines are compared by what all calls share, and positions do not count. -/
def shared : Coupling where
  positions _ _ := True
  machines := Machine.Shares
  lenient := False

/-- Machines are compared inside calls that were made from two callers. -/
def isolated (first second : Machine) : Coupling where
  positions := Eq
  machines := Machine.Inside first second
  lenient := False

end Coupling

namespace Exec

open Machine (Shares SameCaller Inside ControlKept)

variable {first second : Machine}

/-! ## Inside a call -/

theorem agree_enterCall (globals : first.scopes.globals = second.scopes.globals)
    (functions : first.functions = second.functions) (heap : first.heap = second.heap)
    (depth : first.frames.length = second.frames.length) (function : Function)
    (arguments : List Value) :
    (enterCall function arguments first).Agree (enterCall function arguments second) where
  cursor := rfl
  globals := globals
  locals := rfl
  functions := functions
  caller := rfl
  depth := congrArg (· + 1) depth
  loopDepth := rfl
  returned := rfl
  heap := congrArg (retagArguments · (function.parameters.zip arguments)) heap

/-- Two calls of a function begin on machines that differ in the callers only. -/
theorem inside_enterCall (shares : first.Shares second) (function : Function)
    (arguments : List Value) :
    Inside first second (enterCall function arguments first) (enterCall function arguments second) where
  agree := agree_enterCall shares.globals shares.functions shares.heap shares.depth function arguments
  output := shares.output
  suspended := ⟨[], rfl, rfl⟩
  frames := ⟨[function], rfl, rfl⟩

/-- A call inside the call ends, and what it has put aside comes back: the second execution has kept
it, and the first one has put aside the same. -/
theorem inside_leaveCall {inside within deeper beneath : Machine}
    (related : Inside first second inside within) {function : Function} {arguments : List Value}
    {added : List Entry} (kept : ControlKept added (enterCall function arguments within) beneath)
    (ended : Inside first second deeper beneath) :
    Inside first second (leaveCall inside.cursor inside.loopDepth deeper)
      (leaveCall within.cursor within.loopDepth beneath) := by
  obtain ⟨own, here, there⟩ := related.suspended
  obtain ⟨aside, above, below⟩ := ended.suspended
  obtain ⟨active, running, called⟩ := related.frames
  obtain ⟨calls, framed, stacked⟩ := ended.frames
  have suspended : beneath.scopes.suspended = within.scopes.locals :: within.scopes.suspended :=
    kept.suspended
  have frames : beneath.frames = function :: within.frames := kept.frames
  obtain rfl : aside = within.scopes.locals :: own := by
    rw [suspended, there, ← List.cons_append] at below
    exact (List.append_cancel_right below).symm
  obtain rfl : calls = function :: active := by
    rw [frames, called, ← List.cons_append] at stacked
    exact (List.append_cancel_right stacked).symm
  have left : deeper.scopes.leave = { deeper.scopes with
      locals := within.scopes.locals, suspended := inside.scopes.suspended } := by
    unfold Scopes.leave
    rw [above, here]
    rfl
  have right : beneath.scopes.leave = { beneath.scopes with
      locals := within.scopes.locals, suspended := within.scopes.suspended } := by
    unfold Scopes.leave
    rw [suspended]
  have tails : deeper.frames.tail = inside.frames ∧ beneath.frames.tail = within.frames := by
    rw [framed, frames, running]
    exact ⟨rfl, rfl⟩
  have agree := related.agree
  unfold leaveCall
  rw [left, right, tails.1, tails.2]
  exact
    { agree :=
        { cursor := agree.cursor
          globals := ended.agree.globals
          locals := rfl
          functions := ended.agree.functions
          caller := agree.caller
          depth := agree.depth
          loopDepth := agree.loopDepth
          returned := ended.agree.returned
          heap := ended.agree.heap }
      output := ended.output
      suspended := ⟨own, here, there⟩
      frames := ⟨active, running, called⟩ }

theorem isolated_laws (script : Script) (first second : Machine) :
    (Coupling.isolated first second).Laws script script where
  scripts := .refl script
  agree related := related.agree
  moved related place := { related with agree := { related.agree with cursor := rfl } }
  rescoped related globals locals :=
    { related with agree := { related.agree with globals := rfl, locals := rfl } }
  stored related heap := { related with agree := { related.agree with heap := rfl } }
  wrote related text :=
    { related with agree := { related.agree with }, output := congrArg (·.push text) related.output }
  registered related _ _ _ _ := { related with agree := { related.agree with functions := rfl } }
  looped related loopDepth := { related with agree := { related.agree with loopDepth := rfl } }
  gave related value := { related with agree := { related.agree with returned := rfl } }
  entered := by
    intro inside within related _ function arguments
    obtain ⟨own, here, there⟩ := related.suspended
    obtain ⟨active, running, called⟩ := related.frames
    have agree := related.agree
    exact
      { agree := agree_enterCall agree.globals agree.functions agree.heap agree.depth function arguments
        output := related.output
        suspended := ⟨within.scopes.locals :: own,
          congr (congrArg List.cons agree.locals) here, congrArg (within.scopes.locals :: ·) there⟩
        frames := ⟨function :: active, congrArg (function :: ·) running,
          congrArg (function :: ·) called⟩ }
  returned related _ _ _ kept ended := inside_leaveCall related kept ended

theorem inside_observed {script : Script} {verbosity : Nat} {inside within : Machine}
    (related : Inside first second inside within) :
    Inside first second (observed script verbosity inside) (observed script verbosity within) :=
  { related with agree := { related.agree with } }

/-! ## Around a call -/

theorem shares_leaveCall {inside within : Machine} (ended : Inside first second inside within)
    (cursor loopDepth other others : Nat) :
    (leaveCall cursor loopDepth inside).Shares (leaveCall other others within) where
  globals := by
    have same := ended.agree.globals
    unfold leaveCall Scopes.leave
    split <;> split <;> exact same
  functions := ended.agree.functions
  heap := ended.agree.heap
  output := ended.output
  depth := by
    change inside.frames.tail.length = within.frames.tail.length
    rw [List.length_tail, List.length_tail, ended.agree.depth]

/-- Calls on machines that share what all calls share do the same. -/
theorem invoke_outcomes (script : Script) (verbosity fuel rounds : Nat) (function : Function)
    (arguments : List Value) (name other : Token) (shares : first.Shares second) :
    Coupling.shared.Outcomes Eq
      (invoke (evaluator script verbosity fuel) function arguments name rounds first)
      (invoke (evaluator script verbosity fuel) function arguments other rounds second) := by
  have laws := isolated_laws script first second
  have evaluators : (Coupling.isolated first second).Evaluators (evaluator script verbosity fuel)
      (evaluator script verbosity fuel) := laws.evaluators inside_observed (.refl _ fuel)
  have outcomes := laws.callBody evaluators.statement function.finish (.refl _ rounds)
    (inside_enterCall shares function arguments)
  rw [invoke_eq, invoke_eq]
  apply Coupling.bind_outcomes
  · exact outcomes.ensuring Failure.Alike.anywhere id fun ended => shares_leaveCall ended _ _ _ _
  · rintro ended _ middle between _ rfl related
    exact Coupling.Laws.callResult function trivial ended related

theorem sameCaller : Standing Machine.SameCaller where
  refl _ := ⟨rfl, rfl, rfl, rfl, rfl⟩
  trans start rest :=
    ⟨rest.locals.trans start.locals, rest.suspended.trans start.suspended,
      rest.cursor.trans start.cursor, rest.loopDepth.trans start.loopDepth,
      rest.frames.trans start.frames⟩

theorem sameCaller_leaveCall {machine inside : Machine} {function : Function}
    {arguments : List Value} {added : List Entry}
    (kept : ControlKept added (enterCall function arguments machine) inside) :
    machine.SameCaller (leaveCall machine.cursor machine.loopDepth inside) := by
  have suspended : inside.scopes.suspended = machine.scopes.locals :: machine.scopes.suspended :=
    kept.suspended
  have frames : inside.frames = function :: machine.frames := kept.frames
  have left : inside.scopes.leave = { inside.scopes with
      locals := machine.scopes.locals, suspended := machine.scopes.suspended } := by
    unfold Scopes.leave
    rw [suspended]
  constructor
  · simp [leaveCall, left]
  · simp [leaveCall, left]
  · rfl
  · rfl
  · simp [leaveCall, frames]

/-- A caller finds everything that belongs to it as it was before the call, whatever the outcome. -/
theorem invoke_sameCaller {evaluator : Evaluator} (keeps : evaluator.KeepsControl)
    (function : Function) (arguments : List Value) (name : Token) (fuel : Nat) (machine : Machine) :
    machine.SameCaller (finalOf (invoke evaluator function arguments name fuel machine)) := by
  obtain ⟨added, kept⟩ := controlDiscipline.callBody keeps.statement function.finish fuel
    (enterCall function arguments machine)
  rw [invoke_eq]
  have returned : machine.SameCaller (finalOf (ensuring
      (leaveCall machine.cursor machine.loopDepth)
      (callBody evaluator.statement function.finish fuel)
      (enterCall function arguments machine))) := by
    rw [finalOf_ensuring]
    exact sameCaller_leaveCall kept
  exact related_bind sameCaller.trans returned fun ended middle _ =>
    sameCaller.callResult function name ended middle

/-- A call cannot see or touch what belongs to its caller. Two calls of a function with the same
arguments, on machines with the same globals, functions, arrays and output and as many active calls,
end alike: with the same value, or with failures of one class and message, and again with the same
globals, functions, arrays and output. And whatever the outcome, the local scopes, the cursor and the
loop count of either caller are what they were. -/
theorem call_isolated (script : Script) (verbosity fuel : Nat) (function : Function)
    (arguments : List Value) (name other : Token) (first second : Machine)
    (shares : first.Shares second) :
    Coupling.shared.Outcomes Eq
        (invoke (evaluator script verbosity fuel) function arguments name fuel first)
        (invoke (evaluator script verbosity fuel) function arguments other fuel second) ∧
      first.SameCaller
        (finalOf (invoke (evaluator script verbosity fuel) function arguments name fuel first)) ∧
      second.SameCaller
        (finalOf (invoke (evaluator script verbosity fuel) function arguments other fuel second)) := by
  have keeps : (evaluator script verbosity fuel).KeepsControl :=
    controlDiscipline.evaluates script verbosity fuel
  constructor
  · exact invoke_outcomes script verbosity fuel fuel function arguments name other shares
  · exact ⟨invoke_sameCaller keeps function arguments name fuel first,
      invoke_sameCaller keeps function arguments other fuel second⟩

/-- A function that counts up a global variable is called outside everything, and from a loop with a
local constant of the same name. -/
theorem call_isolated_from_shadowing_local :
    let script := Script.ofSource "n: number = 1 func f(by: number): number { n += by return n }".toList
    let function : Function :=
      ⟨"f", [⟨"by", some (.simple "number")⟩], .simple "number", 15, 20⟩
    let first := finalOf (program script (evaluator script 0 8) 8 .initial)
    let second := { first with
      cursor := 3
      loopDepth := 2
      scopes := first.scopes.push ⟨[("n", ⟨.string "local", none, true⟩)]⟩ }
    let calling (position : Position) (machine : Machine) :=
      invoke (evaluator script 0 8) function [.number (.ofNat 2)]
        ⟨.identifier, some "f", position⟩ 8 machine
    (first.functions = [function] ∧ first.Shares second ∧
      calling ⟨7, 7⟩ second = .ok (.number (.ofNat 3)) (finalOf (calling ⟨7, 7⟩ second))) ∧
    Coupling.shared.Outcomes Eq (calling .start first) (calling ⟨7, 7⟩ second) ∧
      first.SameCaller (finalOf (calling .start first)) ∧
        second.SameCaller (finalOf (calling ⟨7, 7⟩ second)) := by
  intro script function first second calling
  have shares : first.Shares second := ⟨rfl, rfl, rfl, rfl, rfl⟩
  constructor
  · exact ⟨by decide +kernel, shares, by decide +kernel⟩
  · exact call_isolated script 0 8 function _ _ _ first second shares

end Exec

end Onepass
