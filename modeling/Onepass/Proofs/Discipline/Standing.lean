import Onepass.Proofs.Outcome

/-! # What actions keep that only look

Many parts of a construct read the machine and leave it as it is: they look at the script, at a value
or at a binding, and give a result or fail. They respect every relation that holds between a machine
and itself and can be followed from machine to machine.
-/

set_option autoImplicit false

namespace Onepass

/-- A relation between machines that holds as long as nothing changes. -/
structure Standing (relation : Machine → Machine → Prop) : Prop where
  refl : ∀ machine, relation machine machine
  trans : ∀ {first middle last}, relation first middle → relation middle last → relation first last

/-- The machine stays as it is. -/
theorem unchanged : Standing fun first last => last = first where
  refl _ := rfl
  trans start rest := rest.trans start

namespace Standing

open Exec (Keeps)

variable {relation : Machine → Machine → Prop} (standing : Standing relation)
variable {α β : Type}

include standing

/-! ## Sequences and single actions -/

theorem bind {action : Exec α} {next : α → Exec β} (first : Keeps relation action)
    (rest : ∀ value, Keeps relation (next value)) : Keeps relation (action >>= next) :=
  Keeps.bind standing.trans first rest

theorem pure (value : α) : Keeps relation (Pure.pure value : Exec α) :=
  standing.refl

theorem throw (failure : Failure) : Keeps relation (MonadExcept.throw failure : Exec α) :=
  standing.refl

theorem refuse (cause : Cause) (position : Position) :
    Keeps relation (Exec.refuse cause position : Exec α) :=
  standing.refl

theorem guarded (condition : Prop) [Decidable condition] {stop : Exec Unit} {next : Unit → Exec β}
    (stopKeeps : Keeps relation stop) (rest : Keeps relation (next ())) :
    Keeps relation (if condition then stop >>= next else next ()) := by
  split
  · exact standing.bind stopKeeps fun _ => rest
  · exact rest

theorem get : Keeps relation (MonadState.get : Exec Machine) :=
  standing.refl

theorem ofDiagnosed (result : Except Diagnostic α) : Keeps relation (Exec.ofDiagnosed result) := by
  cases result <;> exact standing.refl

theorem located (position : Position) (result : Except Fault α) :
    Keeps relation (Exec.located position result) := by
  cases result with
  | ok value => exact standing.refl
  | error fault => cases fault <;> exact standing.refl

/-! ## Looking at the script -/

variable (script : Script)

theorem current : Keeps relation (Exec.current script) :=
  standing.refl

theorem currentKind : Keeps relation (Exec.currentKind script) :=
  standing.refl

theorem followingKind : Keeps relation (Exec.followingKind script) :=
  standing.refl

theorem refuseToken (wanted : Kind) : Keeps relation (Exec.refuseToken script wanted : Exec α) :=
  standing.refl

/-! ## Looking at values -/

theorem describe (value : Value) : Keeps relation (Exec.describe value) :=
  standing.refl

theorem conforms (value : Value) (type : DeclaredType) : Keeps relation (Exec.conforms value type) :=
  standing.refl

theorem applyBinary (token : Token) (operator : BinaryOperator) (left right : Value) :
    Keeps relation (Exec.applyBinary token operator left right) :=
  standing.bind standing.get fun _ => standing.located _ _

theorem placeOf (length : Nat) (index : Value) (token : Token) :
    Keeps relation (Exec.placeOf length index token) := by
  unfold Exec.placeOf
  split
  · split
    · exact standing.refuse _ _
    · split
      · exact standing.pure _
      · split
        · exact standing.throw _
        · exact standing.refuse _ _
  · exact standing.bind (standing.describe _) fun _ => standing.refuse _ _

theorem elementAt (container index : Value) (token : Token) :
    Keeps relation (Exec.elementAt container index token) := by
  unfold Exec.elementAt
  split
  · refine standing.bind standing.get fun _ => ?_
    refine standing.bind (standing.placeOf _ index token) fun _ => ?_
    exact standing.bind standing.get fun _ => standing.pure _
  · exact standing.bind (standing.placeOf _ index token) fun _ => standing.pure _
  · exact standing.bind (standing.describe _) fun _ => standing.refuse _ _

theorem bindingOf (name : Token) : Keeps relation (Exec.bindingOf name) := by
  refine standing.bind standing.get fun machine => ?_
  split
  · exact standing.pure _
  · exact standing.refuse _ _

theorem valueOf (name : Token) : Keeps relation (Exec.valueOf name) :=
  standing.bind (standing.bindingOf name) fun _ => standing.pure _

theorem printed (value : Value) : Keeps relation (Exec.printed value) := by
  refine standing.bind standing.get fun machine => ?_
  split
  · exact standing.pure _
  · exact standing.throw _

theorem lengthOf (value : Value) (member : Token) : Keeps relation (Exec.lengthOf value member) := by
  unfold Exec.lengthOf
  split
  · exact standing.bind standing.get fun _ => standing.pure _
  · exact standing.pure _
  · exact standing.bind (standing.describe _) fun _ => standing.refuse _ _

theorem testOrConvert (test : Bool) (value : Value) (target : Token) :
    Keeps relation (Exec.testOrConvert test value target) := by
  unfold Exec.testOrConvert
  split
  · refine standing.bind standing.get fun machine => ?_
    split
    · exact standing.pure _
    · exact standing.refuse _ _
  · exact standing.bind standing.get fun machine => standing.located _ _

/-! ## Parts of statements -/

theorem checkArguments (function : String) (given : List (Parameter × Token × Value)) :
    Keeps relation (Exec.checkArguments function given) := by
  induction given with
  | nil => exact standing.pure _
  | cons argument rest ih =>
      obtain ⟨parameter, token, value⟩ := argument
      unfold Exec.checkArguments
      split
      · refine standing.bind (standing.conforms value _) fun fits => ?_
        split
        · exact ih
        · exact standing.bind (standing.describe _) fun _ => standing.refuse _ _
      · exact ih

theorem callResult (function : Function) (name : Token) (ended : Signal × Value) :
    Keeps relation (Exec.callResult function name ended) := by
  unfold Exec.callResult
  split
  · exact standing.pure _
  · split
    · exact standing.pure _
    · exact standing.refuse _ _

theorem checkAssigned (value : Value) (type : DeclaredType) (position : Position) :
    Keeps relation (Exec.checkAssigned value type position) := by
  refine standing.bind (standing.conforms value type) fun fits => ?_
  split
  · exact standing.pure _
  · exact standing.bind (standing.describe _) fun _ => standing.refuse _ _

theorem selectElement (name : Token) (container : Value) (selected : List (Token × Value)) :
    Keeps relation (Exec.selectElement name container selected) := by
  induction selected generalizing container with
  | nil => exact standing.pure _
  | cons index rest ih =>
      cases rest with
      | nil =>
          unfold Exec.selectElement
          split
          · refine standing.bind standing.get fun machine => ?_
            exact standing.bind (standing.placeOf _ _ _) fun _ => standing.pure _
          · exact standing.refuse _ _
      | cons next others =>
          refine standing.bind (standing.elementAt container _ _) fun element => ?_
          exact ih element

theorem targetValue (binding : Binding) (target : Exec.Target) :
    Keeps relation (Exec.targetValue binding target) := by
  cases target with
  | named => exact standing.pure _
  | element address place => exact standing.bind standing.get fun _ => standing.pure _

theorem boundOf (value : Value) (position : Position) :
    Keeps relation (Exec.boundOf value position) := by
  unfold Exec.boundOf
  split
  · exact standing.pure _
  · exact standing.bind (standing.describe _) fun _ => standing.refuse _ _

theorem iterationOver (value : Value) (position : Position) :
    Keeps relation (Exec.iterationOver value position) := by
  unfold Exec.iterationOver
  split
  · exact standing.bind standing.get fun _ => standing.pure _
  · exact standing.pure _
  · exact standing.bind (standing.describe _) fun _ => standing.refuse _ _

theorem nextOf (iteration : Iteration) : Keeps relation (Exec.nextOf iteration) := by
  unfold Exec.nextOf
  split
  · exact standing.pure _
  · exact standing.throw _

theorem noteEnd (known : Option Nat) (signal : Signal) :
    Keeps relation (Exec.noteEnd known signal) := by
  unfold Exec.noteEnd
  split
  · exact standing.bind standing.get fun _ => standing.pure _
  · exact standing.pure _

end Standing

end Onepass
