import Onepass.Proofs.Discipline.Standing

/-! # What actions keep that only move the cursor

Reading a token moves the cursor and does nothing else. The actions that read tokens, or jump to
another place of the script, respect every relation that a move of the cursor respects.
-/

set_option autoImplicit false

namespace Onepass

/-- A relation between machines that holds as long as only the cursor moves. -/
structure Moving (relation : Machine → Machine → Prop) : Prop extends Standing relation where
  moved : ∀ machine place, relation machine { machine with cursor := place }

namespace Moving

open Exec (Keeps)

variable {relation : Machine → Machine → Prop} (moving : Moving relation)
variable {α : Type} (script : Script)

include moving

/-! ## Reading tokens -/

theorem moveTo (place : Nat) : Keeps relation (Exec.moveTo place) :=
  fun machine => moving.moved machine place

theorem advance : Keeps relation (Exec.advance script) := by
  refine moving.bind (moving.current script) fun token => ?_
  split
  · exact moving.bind (fun machine => moving.moved machine _) fun _ => moving.pure _
  · exact moving.pure _

theorem accept (kind : Kind) : Keeps relation (Exec.accept script kind) := by
  refine moving.bind (moving.currentKind script) fun found => ?_
  split
  · exact moving.bind (moving.advance script) fun _ => moving.pure _
  · exact moving.pure _

theorem expect (kind : Kind) : Keeps relation (Exec.expect script kind) := by
  refine moving.bind (moving.currentKind script) fun found => ?_
  split
  · exact moving.advance script
  · exact moving.refuseToken script kind

theorem expectSymbol (mark : Symbol) : Keeps relation (Exec.expectSymbol script mark) :=
  moving.bind (moving.expect script _) fun _ => moving.pure _

theorem acceptSemicolon : Keeps relation (Exec.acceptSemicolon script) :=
  moving.bind (moving.accept script _) fun _ => moving.pure _

theorem passOver (partEnd : (place : Nat) → Except Diagnostic (Ahead place)) :
    Keeps relation (Exec.passOver partEnd) :=
  moving.bind moving.get fun machine =>
    moving.bind (moving.ofDiagnosed (partEnd machine.cursor)) fun next =>
      moving.moveTo next.val

theorem passBody : Keeps relation (Exec.passBody script) :=
  moving.bind moving.get fun _ => moving.passOver _

theorem bodyEnd (place : Nat) : Keeps relation (Exec.bodyEnd script place) :=
  moving.bind moving.get fun _ =>
    moving.bind (moving.ofDiagnosed _) fun _ => moving.pure _

theorem readType : Keeps relation (Exec.readType script) :=
  moving.bind moving.get fun _ =>
    moving.bind (moving.ofDiagnosed _) fun _ =>
      moving.bind (moving.advance script) fun _ => moving.pure _

theorem separated (closing : Symbol) {item : Exec α} (keeps : Keeps relation item) (fuel : Nat) :
    Keeps relation (Exec.separated script closing item fuel) := by
  induction fuel with
  | zero => exact moving.throw _
  | succ fuel ih =>
      unfold Exec.separated
      refine moving.bind (moving.currentKind script) fun found => ?_
      split
      · exact moving.pure _
      · refine moving.bind keeps fun first => ?_
        refine moving.bind (moving.accept script _) fun more => ?_
        split
        · exact moving.bind ih fun _ => moving.pure _
        · exact moving.pure _

/-! ## Parts of expressions and statements -/

theorem stringLiteral (fuel : Nat) : Keeps relation (Exec.stringLiteral script fuel) := by
  induction fuel with
  | zero => exact moving.throw _
  | succ fuel ih =>
      unfold Exec.stringLiteral
      refine moving.bind (moving.currentKind script) fun found => ?_
      split
      · refine moving.bind (moving.advance script) fun token => ?_
        exact moving.bind ih fun _ => moving.pure _
      · refine moving.bind (moving.advance script) fun token => ?_
        refine moving.bind (moving.valueOf token) fun value => ?_
        refine moving.bind (moving.printed value) fun text => ?_
        exact moving.bind ih fun _ => moving.pure _
      · exact moving.pure _

theorem typeTests (fuel : Nat) (value : Value) :
    Keeps relation (Exec.typeTests script fuel value) := by
  induction fuel generalizing value with
  | zero => exact moving.throw _
  | succ fuel ih =>
      unfold Exec.typeTests
      refine moving.bind (moving.currentKind script) fun operator => ?_
      split
      · refine moving.bind (moving.advance script) fun _ => ?_
        refine moving.bind (moving.current script) fun target => ?_
        split
        · refine moving.bind (moving.advance script) fun _ => ?_
          exact moving.bind (moving.testOrConvert _ value target) fun result => ih result
        · exact moving.refuse _ _
      · exact moving.pure _

theorem optionalType : Keeps relation (Exec.parameters.optionalType script) := by
  refine moving.bind (moving.accept script _) fun colon => ?_
  split
  · exact moving.bind (moving.readType script) fun _ => moving.pure _
  · exact moving.pure _

theorem parameters (function : String) (known : List Parameter) (fuel : Nat) :
    Keeps relation (Exec.parameters script function known fuel) := by
  induction fuel generalizing known with
  | zero => exact moving.throw _
  | succ fuel ih =>
      unfold Exec.parameters
      refine moving.bind (moving.currentKind script) fun found => ?_
      split
      · exact moving.pure _
      · refine moving.bind (moving.expect script _) fun name => ?_
        refine moving.guarded _ (moving.refuse _ _) ?_
        refine moving.bind (moving.optionalType script) fun type => ?_
        refine moving.bind (moving.accept script _) fun more => ?_
        split
        · exact ih _
        · exact moving.pure _

theorem declaredFunction (fuel : Nat) : Keeps relation (Exec.declaredFunction script fuel) := by
  refine moving.bind (moving.expect script _) fun _ => ?_
  refine moving.bind (moving.expect script _) fun name => ?_
  refine moving.bind (moving.expectSymbol script _) fun _ => ?_
  refine moving.bind (moving.parameters script _ _ fuel) fun signature => ?_
  refine moving.bind (moving.expectSymbol script _) fun _ => ?_
  refine moving.bind (moving.optionalType script) fun returnType => ?_
  refine moving.bind (moving.currentKind script) fun found => ?_
  refine moving.guarded _ (moving.refuseToken script _) ?_
  refine moving.bind moving.get fun before => ?_
  refine moving.bind (moving.passOver _) fun _ => ?_
  exact moving.bind moving.get fun after => moving.pure _

/-- A function is declared by reading its signature, passing over its body and registering it. -/
theorem declaringFunction
    (registers : ∀ function position, Keeps relation (Exec.register function position)) (fuel : Nat) :
    Keeps relation (Exec.functionDeclaration script fuel) := by
  rw [Exec.functionDeclaration_eq]
  exact moving.bind (moving.declaredFunction script fuel) fun read => registers read.1 read.2.position

theorem leaveLoop (bodyStart : Nat) (known : Option Nat) :
    Keeps relation (Exec.leaveLoop script bodyStart known) := by
  unfold Exec.leaveLoop
  split
  · exact moving.bind (moving.moveTo _) fun _ => moving.pure _
  · refine moving.bind (moving.bodyEnd script bodyStart) fun finish => ?_
    exact moving.bind (moving.moveTo finish) fun _ => moving.pure _

theorem leaveRepetition (header : Nat) (known : Option Nat) :
    Keeps relation (Exec.leaveRepetition script header known) := by
  unfold Exec.leaveRepetition
  split
  · exact moving.bind (moving.moveTo _) fun _ => moving.pure _
  · exact moving.bind (moving.ofDiagnosed _) fun bodyStart =>
      moving.leaveLoop script bodyStart.val none

theorem jump : Keeps relation (Exec.jump script) := by
  refine moving.bind (moving.advance script) fun token => ?_
  refine moving.bind moving.get fun machine => ?_
  refine moving.guarded _ (moving.refuse _ _) ?_
  exact moving.bind (moving.acceptSemicolon script) fun _ => moving.pure _

end Moving

end Onepass
