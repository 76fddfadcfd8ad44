import Onepass.Proofs.Termination.Basic

/-! # Reading tokens and looking at values come to an end

What is no repetition ends without any fuel. Reading a token that is there moves the cursor on; looking
at values, storing them and refusing leave it; and passing over a part of the script moves it on to a
place that the end of the script does not stand before.
-/

set_option autoImplicit false

namespace Onepass.Exec

open Machine (Passed Past)

variable {α β : Type} {script : Script} {machine : Machine}

/-- The action needs no fuel, and it does not move the cursor back. -/
def Answers (script : Script) (action : Exec α) : Prop :=
  ∀ machine, Proceeds script (fun _ => action) machine

namespace Answers

/-! ## Looking at values and storing them -/

theorem bind {action : Exec α} {next : α → Exec β} (first : Answers script action)
    (rest : ∀ value, Answers script (next value)) : Answers script (action >>= next) :=
  fun machine => (first machine).then fun value middle _ => rest value middle

theorem pure (value : α) : Answers script (Pure.pure value : Exec α) :=
  fun _ => .pure value

theorem refuse (cause : Cause) (position : Position) :
    Answers script (Exec.refuse cause position : Exec α) :=
  fun _ => .refuse cause position

theorem endless : Answers script (throw .endless : Exec α) :=
  fun _ => .throw nofun

theorem limit (limit : Limit) : Answers script (throw (.limit limit) : Exec α) :=
  fun _ => .throw nofun

theorem get : Answers script (MonadState.get : Exec Machine) :=
  fun _ => .get

theorem located (position : Position) (result : Except Fault α) :
    Answers script (Exec.located position result) := by
  cases result with
  | ok value => exact .pure value
  | error fault =>
      cases fault with
      | cause cause => exact .refuse cause position
      | number fault => exact .refuse _ position
      | limit limit => exact .limit limit
      | endless => exact .endless

theorem describe (value : Value) : Answers script (Exec.describe value) :=
  .bind .get fun _ => .pure _

theorem conforms (value : Value) (type : DeclaredType) : Answers script (Exec.conforms value type) :=
  .bind .get fun _ => .pure _

theorem refuseDescribed (value : Value) (cause : DeclaredType → Cause) (position : Position) :
    Answers script (Exec.describe value >>= fun type => (Exec.refuse (cause type) position : Exec α)) :=
  .bind (.describe value) fun _ => .refuse _ _

theorem retag (value : Value) (type : DeclaredType) : Answers script (Exec.retag value type) :=
  fun _ => .changed rfl rfl

theorem giveBack (value : Value) : Answers script (Exec.giveBack value) :=
  fun _ => .changed rfl rfl

theorem allocate (items : List Value) (type : Option DeclaredType) :
    Answers script (Exec.allocate items type) :=
  fun _ => .of_ok rfl (.of_eq rfl rfl)

theorem applyBinary (token : Token) (operator : BinaryOperator) (left right : Value) :
    Answers script (Exec.applyBinary token operator left right) :=
  .bind .get fun _ => .located _ _

theorem placeOf (length : Nat) (index : Value) (token : Token) :
    Answers script (Exec.placeOf length index token) := by
  unfold Exec.placeOf
  split
  · split
    · exact .refuse _ _
    · split
      · exact .pure _
      · split
        · exact .limit _
        · exact .refuse _ _
  · exact .refuseDescribed _ _ _

theorem elementAt (container index : Value) (token : Token) :
    Answers script (Exec.elementAt container index token) := by
  unfold Exec.elementAt
  split
  · exact .bind .get fun _ => .bind (.placeOf _ _ _) fun _ => .bind .get fun _ => .pure _
  · exact .bind (.placeOf _ _ _) fun _ => .pure _
  · exact .refuseDescribed _ _ _

theorem bindingOf (name : Token) : Answers script (Exec.bindingOf name) := by
  apply Answers.get.bind
  intro machine
  split
  · exact .pure _
  · exact .refuse _ _

theorem valueOf (name : Token) : Answers script (Exec.valueOf name) :=
  .bind (.bindingOf name) fun _ => .pure _

theorem printed (value : Value) : Answers script (Exec.printed value) := by
  apply Answers.get.bind
  intro machine
  split
  · exact .pure _
  · exact .endless

theorem lengthOf (value : Value) (member : Token) : Answers script (Exec.lengthOf value member) := by
  unfold Exec.lengthOf
  split
  · exact .bind .get fun _ => .pure _
  · exact .pure _
  · exact .refuseDescribed _ _ _

theorem testOrConvert (test : Bool) (value : Value) (target : Token) :
    Answers script (Exec.testOrConvert test value target) := by
  unfold Exec.testOrConvert
  split
  · apply Answers.get.bind
    intro machine
    split
    · exact .pure _
    · exact .refuse _ _
  · exact .bind .get fun _ => .located _ _

theorem checkArguments (function : String) (given : List (Parameter × Token × Value)) :
    Answers script (Exec.checkArguments function given) := by
  induction given with
  | nil => exact .pure ()
  | cons argument rest ih =>
      obtain ⟨parameter, token, value⟩ := argument
      unfold Exec.checkArguments
      split
      · apply Answers.bind (.conforms value _)
        intro fits
        split
        · exact ih
        · exact .refuseDescribed _ _ _
      · exact ih

theorem callResult (function : Function) (name : Token) (ended : Signal × Value) :
    Answers script (Exec.callResult function name ended) := by
  unfold Exec.callResult
  split
  · exact .pure _
  · split
    · exact .pure _
    · exact .refuse _ _

theorem adopt (value : Value) (expected : Option DeclaredType) (position : Position) :
    Answers script (Exec.adopt value expected position) := by
  cases expected with
  | none => exact .pure ()
  | some type =>
      have checked : Answers script (Exec.checkAssigned value type position) := by
        apply Answers.bind (.conforms value type)
        intro fits
        split
        · exact .pure ()
        · exact .refuseDescribed _ _ _
      exact .bind checked fun _ => .retag value type

theorem selectElement (name : Token) (container : Value) (selected : List (Token × Value)) :
    Answers script (Exec.selectElement name container selected) := by
  induction selected generalizing container with
  | nil => exact .pure _
  | cons index rest ih =>
      cases rest with
      | nil =>
          unfold Exec.selectElement
          split
          · exact .bind .get fun _ => .bind (.placeOf _ _ _) fun _ => .pure _
          · exact .refuse _ _
      | cons next others => exact .bind (.elementAt container _ _) fun element => ih element

theorem targetValue (binding : Binding) (target : Target) :
    Answers script (Exec.targetValue binding target) := by
  cases target with
  | named => exact .pure _
  | element address place => exact .bind .get fun _ => .pure _

theorem store (name : Token) (target : Target) (value : Value) :
    Answers script (Exec.store name target value) := by
  cases target with
  | named => exact fun _ => .changed rfl rfl
  | element address place => exact fun _ => .changed rfl rfl

theorem register (function : Function) (position : Position) :
    Answers script (Exec.register function position) := by
  apply Answers.get.bind
  intro machine
  dsimp only
  split
  · exact .pure ()
  · split
    · exact fun _ => .changed rfl rfl
    · exact .refuse _ _

theorem boundOf (value : Value) (position : Position) :
    Answers script (Exec.boundOf value position) := by
  unfold Exec.boundOf
  split
  · exact .pure _
  · exact .refuseDescribed _ _ _

theorem iterationOver (value : Value) (position : Position) :
    Answers script (Exec.iterationOver value position) := by
  unfold Exec.iterationOver
  split
  · exact .bind .get fun _ => .pure _
  · exact .pure _
  · exact .refuseDescribed _ _ _

/-! ## Reading tokens -/

theorem current : Answers script (Exec.current script) :=
  .bind .get fun _ => .pure _

theorem currentKind : Answers script (Exec.currentKind script) :=
  .bind .get fun _ => .pure _

end Answers

theorem advances_advance (proper : script.kindAt machine.cursor ≠ .endOfInput) :
    Advances script (fun _ => advance script) machine :=
  .of_ok (advance_eq proper) (.token proper)

namespace Answers

theorem advance : Answers script (Exec.advance script) := by
  intro machine
  by_cases proper : script.kindAt machine.cursor = .endOfInput
  · exact .of_ok (advance_of_ended proper) (.refl machine)
  · exact (advances_advance proper).proceeds

theorem accept (kind : Kind) : Answers script (Exec.accept script kind) := by
  apply Answers.currentKind.bind
  intro found
  split
  · exact .bind .advance fun _ => .pure true
  · exact .pure false

theorem acceptSemicolon : Answers script (Exec.acceptSemicolon script) :=
  .bind (.accept _) fun _ => .pure ()

end Answers

/-! ## What is read decides how to go on -/

section

variable {post : β → Machine → Prop}

theorem Ends.get {next : Nat → Machine → Exec β}
    (ends : Ends (fun fuel => next fuel machine) machine post) :
    Ends (fun fuel => MonadState.get >>= next fuel) machine post :=
  ends

theorem Ends.current {next : Nat → Token → Exec β}
    (ends : Ends (fun fuel => next fuel (script.tokenAt machine.cursor)) machine post) :
    Ends (fun fuel => Exec.current script >>= next fuel) machine post :=
  ends

theorem Ends.currentKind {next : Nat → Kind → Exec β}
    (ends : Ends (fun fuel => next fuel (script.kindAt machine.cursor)) machine post) :
    Ends (fun fuel => Exec.currentKind script >>= next fuel) machine post :=
  ends

theorem Ends.followingKind {next : Nat → Kind → Exec β}
    (ends : Ends (fun fuel => next fuel (script.kindAt (machine.cursor + 1))) machine post) :
    Ends (fun fuel => Exec.followingKind script >>= next fuel) machine post :=
  ends

end

theorem advances_expect (kind : Kind) (proper : kind ≠ .endOfInput) :
    Advances script (fun _ => expect script kind) machine := by
  apply Ends.currentKind
  apply Ends.ite
  · intro there
    exact advances_advance (by rw [there]; exact proper)
  · intro _
    exact .refuse _ _

theorem advances_expectSymbol (mark : Symbol) :
    Advances script (fun _ => expectSymbol script mark) machine :=
  (advances_expect (.symbol mark) nofun).then fun _ _ _ => .pure ()

theorem advances_passOver {partEnd : (place : Nat) → Except Diagnostic (Ahead place)}
    (within : ∀ {place} {next : Ahead place}, partEnd place = .ok next →
      script.Within place next.val) :
    Advances script (fun _ => passOver partEnd) machine := by
  apply Ends.get
  cases found : partEnd machine.cursor with
  | error diagnostic => exact .throw nofun
  | ok next => exact .of_ok rfl ⟨⟨rfl, within found⟩, next.property⟩

theorem advances_passBody : Advances script (fun _ => passBody script) machine := by
  apply Ends.get
  exact advances_passOver fun found => (Script.within_passable script).bodyEnd found

theorem advances_readType : Advances script (fun _ => readType script) machine := by
  apply Ends.get
  cases found : script.typeAt machine.cursor with
  | error diagnostic => exact .throw nofun
  | ok type =>
      have proper : script.kindAt machine.cursor ≠ .endOfInput :=
        Script.kindAt_ne_of_ordinary (Kind.isOrdinary_of_type (Script.typeAt_ok found))
      exact (advances_advance proper).then fun _ _ _ => .pure type

theorem Answers.optionalType : Answers script (parameters.optionalType script) := by
  apply (Answers.accept _).bind
  intro colon
  split
  · exact .bind (fun _ => advances_readType.proceeds) fun _ => .pure _
  · exact .pure none

/-- The place where a body ends, which is not past the end of the script. -/
theorem ends_bodyEnd (place : Nat) :
    Ends (fun _ => bodyEnd script place) machine fun finish final =>
      final = machine ∧ script.Within place finish ∧ place < finish := by
  apply Ends.get
  dsimp only
  cases found : script.bodyEnd machine.running place with
  | error diagnostic => exact .throw nofun
  | ok next =>
      exact .of_ok rfl ⟨rfl, (Script.within_passable script).bodyEnd found, next.property⟩

/-! ## Repetitions -/

/-- The action advances from wherever it is begun, at the cursor of a machine or after it. -/
def AdvancesFrom (script : Script) (action : Nat → Exec α) (machine : Machine) : Prop :=
  ∀ ⦃next⦄, Passed script machine next → Advances script action next

theorem AdvancesFrom.later {action : Nat → Exec α} (advances : AdvancesFrom script action machine) :
    AdvancesFrom script (fun fuel => action (fuel + 1)) machine :=
  fun _ passed => (advances passed).later

theorem AdvancesFrom.onward {action : Nat → Exec α} {next : Machine}
    (advances : AdvancesFrom script action machine) (passed : Passed script machine next) :
    AdvancesFrom script action next :=
  fun _ further => advances (passed.trans further)

theorem AdvancesFrom.here {action : Nat → Exec α} (advances : AdvancesFrom script action machine) :
    Advances script action machine :=
  advances (.refl machine)

theorem proceeds_separated (closing : Symbol) {item : Nat → Exec α}
    (items : AdvancesFrom script item machine) :
    Proceeds script (fun fuel => separated script closing (item fuel) fuel) machine := by
  -- Every item moves the cursor on, so the rest is shorter.
  induction machine using Past.induction script generalizing item with
  | step machine ih =>
      apply Ends.shift
      apply Ends.currentKind
      apply Ends.ite
      · intro _
        exact Proceeds.pure []
      · intro _
        apply Advances.proceeds
        apply items.later.here.then
        intro first middle past
        apply (Answers.accept _ middle).then
        intro more after passed
        have further : Past script machine after := past.passed passed
        cases more with
        | false => exact .pure [first]
        | true =>
            apply (ih after further (items.later.onward further.toPassed)).then
            intro rest final _
            exact .pure (first :: rest)

end Onepass.Exec
