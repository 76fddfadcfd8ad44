import Onepass.Proofs.Lockstep.Basic

/-! # Reading tokens and looking at values in step

On related machines, the actions that read tokens find tokens that are alike and move on alike, and
those that look at values find the same.
-/

set_option autoImplicit false

namespace Onepass.Coupling.Laws

variable {α β : Type}
variable {coupling : Coupling} {left right : Script} (laws : coupling.Laws left right)
variable {results : α → β → Prop}

include laws

/-! ## Reading tokens -/

theorem current :
    coupling.Pairs (Token.Alike coupling.positions) (Exec.current left) (Exec.current right) := by
  intro first second related
  have alike := laws.scripts.token second.cursor
  apply Outcomes.succeeded _ related
  rwa [(laws.agree related).cursor]

theorem currentKind : coupling.Pairs Eq (Exec.currentKind left) (Exec.currentKind right) := by
  intro first second related
  apply Outcomes.succeeded _ related
  rw [(laws.agree related).cursor]
  exact laws.scripts.kind second.cursor

theorem followingKind : coupling.Pairs Eq (Exec.followingKind left) (Exec.followingKind right) := by
  intro first second related
  apply Outcomes.succeeded _ related
  rw [(laws.agree related).cursor]
  exact laws.scripts.kind (second.cursor + 1)

theorem moveTo (place : Nat) : coupling.Pairs Eq (Exec.moveTo place) (Exec.moveTo place) :=
  fun _ _ related => .succeeded rfl (laws.moved related place)

theorem advance :
    coupling.Pairs (Token.Alike coupling.positions) (Exec.advance left) (Exec.advance right) := by
  apply laws.current.bind
  intro token twin alike
  rw [alike.kind]
  split
  · apply Pairs.then
    · intro first second related
      apply Outcomes.succeeded rfl
      change coupling.machines { first with cursor := first.cursor + 1 }
        { second with cursor := second.cursor + 1 }
      rw [(laws.agree related).cursor]
      exact laws.moved related _
    · intro _
      exact .pure alike
  · exact .pure alike

theorem accept (kind : Kind) : coupling.Pairs Eq (Exec.accept left kind) (Exec.accept right kind) := by
  apply laws.currentKind.then
  intro found
  split
  · exact laws.advance.bind fun _ _ _ => .same true
  · exact .same false

theorem refuseToken (wanted : Kind) :
    coupling.Pairs results (Exec.refuseToken left wanted) (Exec.refuseToken right wanted) := by
  apply laws.current.bind
  intro token twin alike
  rw [alike.kind]
  exact .refuse _ alike.position

theorem expect (kind : Kind) :
    coupling.Pairs (Token.Alike coupling.positions) (Exec.expect left kind) (Exec.expect right kind) := by
  apply laws.currentKind.then
  intro found
  split
  · exact laws.advance
  · exact laws.refuseToken kind

theorem expectSymbol (mark : Symbol) :
    coupling.Pairs Eq (Exec.expectSymbol left mark) (Exec.expectSymbol right mark) :=
  (laws.expect (.symbol mark)).bind fun _ _ _ => .same ()

theorem acceptSemicolon :
    coupling.Pairs Eq (Exec.acceptSemicolon left) (Exec.acceptSemicolon right) :=
  (laws.accept (.symbol .semicolon)).then fun _ => .same ()

theorem passOver {partEnd otherEnd : (place : Nat) → Except Diagnostic (Ahead place)}
    (same : ∀ place, Diagnosed coupling.positions (partEnd place) (otherEnd place)) :
    coupling.Pairs Eq (Exec.passOver partEnd) (Exec.passOver otherEnd) := by
  intro first second related
  change coupling.Outcomes Eq
    ((Exec.ofDiagnosed (partEnd first.cursor) >>= fun next => Exec.moveTo next.val) first)
    ((Exec.ofDiagnosed (otherEnd second.cursor) >>= fun next => Exec.moveTo next.val) second)
  rw [(laws.agree related).cursor]
  exact (Pairs.ofDiagnosed (same second.cursor)).then (fun next => laws.moveTo next.val) related

theorem passBody : coupling.Pairs Eq (Exec.passBody left) (Exec.passBody right) := by
  apply Pairs.get.bind
  intro machine twin related
  rw [(laws.agree related).running]
  exact laws.passOver (laws.scripts.body _)

theorem bodyEnd (place : Nat) :
    coupling.Pairs Eq (Exec.bodyEnd left place) (Exec.bodyEnd right place) := by
  apply Pairs.get.bind
  intro machine twin related
  rw [(laws.agree related).running]
  exact (Pairs.ofDiagnosed (laws.scripts.body _ place)).then fun next => .same next.val

theorem readType : coupling.Pairs Eq (Exec.readType left) (Exec.readType right) := by
  apply Pairs.get.bind
  intro machine twin related
  rw [(laws.agree related).cursor]
  apply (Pairs.ofDiagnosed (laws.scripts.type twin.cursor)).then
  intro type
  exact laws.advance.bind fun _ _ _ => .same type

theorem separated (closing : Symbol) {item : Exec α} {partner : Exec β} {fuel more : Nat}
    (items : coupling.Pairs results item partner) (rounds : coupling.Rounds fuel more) :
    coupling.Pairs (List.Forall₂ results) (Exec.separated left closing item fuel)
      (Exec.separated right closing partner more) := by
  induction rounds with
  | spent none => exact .spent _ none rfl
  | another rounds ih =>
      apply laws.currentKind.then
      intro found
      split
      · exact .pure .nil
      · apply items.bind
        intro first twin same
        apply (laws.accept _).then
        intro more
        split
        · apply ih.bind
          intro rest others alike
          exact .pure (.cons same alike)
        · exact .pure (.cons same .nil)

theorem separatedSame (closing : Symbol) {item partner : Exec α} {fuel more : Nat}
    (items : coupling.Pairs Eq item partner) (rounds : coupling.Rounds fuel more) :
    coupling.Pairs Eq (Exec.separated left closing item fuel)
      (Exec.separated right closing partner more) := by
  intro first second related
  apply (laws.separated closing items rounds related).weaken
  intro values twins alike
  rwa [← List.forall₂_eq_eq_eq]

end Onepass.Coupling.Laws

/-! ## Looking at values -/

namespace Onepass.Coupling.Stores

variable {α β : Type}
variable {coupling : Coupling} (stores : coupling.Stores)
variable {results : α → β → Prop}

include stores

theorem describe (value : Value) :
    coupling.Pairs Eq (Exec.describe value) (Exec.describe value) := by
  intro first second related
  apply Outcomes.succeeded _ related
  rw [(stores.same related).heap]

theorem conforms (value : Value) (type : DeclaredType) :
    coupling.Pairs Eq (Exec.conforms value type) (Exec.conforms value type) := by
  intro first second related
  apply Outcomes.succeeded _ related
  rw [(stores.same related).heap]

theorem retag (value : Value) (type : DeclaredType) :
    coupling.Pairs Eq (Exec.retag value type) (Exec.retag value type) := by
  intro first second related
  apply Outcomes.succeeded rfl
  change coupling.machines { first with heap := first.heap.retag value type }
    { second with heap := second.heap.retag value type }
  rw [(stores.same related).heap]
  exact stores.stored related _

theorem allocate (items : List Value) (type : Option DeclaredType) :
    coupling.Pairs Eq (Exec.allocate items type) (Exec.allocate items type) := by
  intro first second related
  have same := (stores.same related).heap
  change coupling.Outcomes Eq
    (.ok (Value.array (first.heap.allocate items.toArray type).2)
      { first with heap := (first.heap.allocate items.toArray type).1 })
    (.ok (Value.array (second.heap.allocate items.toArray type).2)
      { second with heap := (second.heap.allocate items.toArray type).1 })
  rw [same]
  exact .succeeded rfl (stores.stored related _)

theorem printed (value : Value) :
    coupling.Pairs Eq (Exec.printed value) (Exec.printed value) := by
  apply Pairs.get.bind
  intro machine other related
  rw [(stores.same related).heap]
  split
  · exact .same _
  · exact .throw .endless

/-- A refusal that describes a value. -/
theorem refuseDescribed {position twin : Position} (near : coupling.positions position twin)
    (value : Value) (cause : DeclaredType → Cause) :
    coupling.Pairs results (Exec.describe value >>= fun type => Exec.refuse (cause type) position)
      (Exec.describe value >>= fun type => Exec.refuse (cause type) twin) :=
  (stores.describe value).then fun _ => .refuse _ near

variable {token twin : Token}

section

variable (near : coupling.positions token.position twin.position)

include near

theorem applyBinary (operator : BinaryOperator) (first second : Value) :
    coupling.Pairs Eq (Exec.applyBinary token operator first second)
      (Exec.applyBinary twin operator first second) := by
  apply Pairs.get.bind
  intro machine other related
  rw [(stores.same related).heap]
  exact .located near _

theorem placeOf (length : Nat) (index : Value) :
    coupling.Pairs Eq (Exec.placeOf length index token) (Exec.placeOf length index twin) := by
  unfold Exec.placeOf
  split
  · split
    · exact .refuse _ near
    · split
      · exact .same _
      · split
        · exact .throw (.limit _)
        · exact .refuse _ near
  · exact stores.refuseDescribed near index .indexNotNumber

theorem elementAt (container index : Value) :
    coupling.Pairs Eq (Exec.elementAt container index token)
      (Exec.elementAt container index twin) := by
  unfold Exec.elementAt
  split
  · apply Pairs.get.bind
    intro machine other related
    rw [(stores.same related).heap]
    apply (stores.placeOf near _ index).then
    intro place
    apply Pairs.get.bind
    intro machine other related
    rw [(stores.same related).heap]
    exact .same _
  · exact (stores.placeOf near _ index).then fun _ => .same _
  · exact stores.refuseDescribed near container .notIndexable

theorem lengthOf (value : Value) :
    coupling.Pairs Eq (Exec.lengthOf value token) (Exec.lengthOf value twin) := by
  unfold Exec.lengthOf
  split
  · apply Pairs.get.bind
    intro machine other related
    rw [(stores.same related).heap]
    exact .same _
  · exact .same _
  · exact stores.refuseDescribed near value .noLength

end

variable (alike : Token.Alike coupling.positions token twin)

include alike

theorem bindingOf : coupling.Pairs Eq (Exec.bindingOf token) (Exec.bindingOf twin) := by
  apply Pairs.get.bind
  intro machine other related
  rw [alike.word, (stores.same related).lookup]
  split
  · exact .same _
  · exact .refuse _ alike.position

theorem valueOf : coupling.Pairs Eq (Exec.valueOf token) (Exec.valueOf twin) :=
  (stores.bindingOf alike).then fun binding => .same binding.value

theorem testOrConvert (test : Bool) (value : Value) :
    coupling.Pairs Eq (Exec.testOrConvert test value token)
      (Exec.testOrConvert test value twin) := by
  unfold Exec.testOrConvert
  split
  · apply Pairs.get.bind
    intro machine other related
    rw [alike.word, (stores.same related).heap]
    split
    · exact .same _
    · exact .refuse _ alike.position
  · apply Pairs.get.bind
    intro machine other related
    rw [alike.word, (stores.same related).heap]
    exact .located alike.position _

end Onepass.Coupling.Stores
