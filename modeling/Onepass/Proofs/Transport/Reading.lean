import Mathlib.Data.List.Forall2
import Onepass.Proofs.Transport.Basic

/-! # Reading tokens and looking at values in another script

A look ahead that finds the end of the first script must come to the same decision when it finds the
beginning of a statement instead, or the first execution must fail there.
-/

set_option autoImplicit false

namespace Onepass.Transport.Laws

variable {α β γ δ : Type}
variable {transport : Transport} {left right : Script} (laws : transport.Laws left right)
variable {results : α → β → Prop} {first second : Machine}

include laws

/-! ## Looking ahead -/

theorem sees (related : transport.machines first second) :
    transport.Sees (left.tokenAt first.cursor) (right.tokenAt second.cursor) :=
  laws.embeds.token (laws.agree related).cursor

/-- Two looks at the kind at the cursor: both find the same kind, or the first one finds the end. -/
theorem look {next : Kind → Exec α} {following : Kind → Exec β}
    (same : ∀ kind, transport.PairsAt left kind results (next kind) (following kind))
    (beyond : ∀ kind ∈ Kind.statementStarts, ∀ {first second}, transport.machines first second →
      left.kindAt first.cursor = .endOfInput →
        transport.ends (left.tokenAt first.cursor).position →
          transport.Outcomes results (next .endOfInput first) (following kind second)) :
    transport.Pairs results (Exec.currentKind left >>= next)
      (Exec.currentKind right >>= following) := by
  intro first second related
  change transport.Outcomes results (next (left.kindAt first.cursor) first)
    (following (right.kindAt second.cursor) second)
  cases laws.sees related with
  | alike alike =>
      have kinds : right.kindAt second.cursor = left.kindAt first.cursor := alike.kind.symm
      rw [kinds]
      exact same _ related rfl
  | beyond ends ended starts =>
      have atEnd : left.kindAt first.cursor = .endOfInput := ended
      rw [atEnd]
      exact beyond _ starts related atEnd ends

/-- A look that takes no beginning of a statement for anything but the end of the script. -/
theorem lookBlind {next : Kind → Exec α} {following : Kind → Exec β}
    (blind : ∀ kind ∈ Kind.statementStarts, following kind = following .endOfInput)
    (same : ∀ kind, transport.PairsAt left kind results (next kind) (following kind)) :
    transport.Pairs results (Exec.currentKind left >>= next)
      (Exec.currentKind right >>= following) := by
  apply laws.look same
  intro kind starts first second related ended _
  rw [blind kind starts]
  exact same .endOfInput related ended

/-- A look after which the first execution is refused at the end of its script. -/
theorem lookProper {next : Kind → Exec α} {following : Kind → Exec β}
    (refused : RefusedAtEnd left (next .endOfInput))
    (same : ∀ kind, transport.PairsAt left kind results (next kind) (following kind)) :
    transport.Pairs results (Exec.currentKind left >>= next)
      (Exec.currentKind right >>= following) :=
  laws.look same fun _ _ _ _ _ ended ends => refused.excused ended ends

/-- Two looks at the token at the cursor. -/
theorem see {next : Token → Exec α} {following : Token → Exec β}
    (same : ∀ token twin, Token.Alike transport.positions token twin →
      transport.PairsAt left token.kind results (next token) (following twin))
    (beyond : ∀ token twin, transport.ends token.position → token.kind = .endOfInput →
      twin.kind ∈ Kind.statementStarts →
        transport.PairsAt left .endOfInput results (next token) (following twin)) :
    transport.Pairs results (Exec.current left >>= next) (Exec.current right >>= following) := by
  intro first second related
  change transport.Outcomes results (next (left.tokenAt first.cursor) first)
    (following (right.tokenAt second.cursor) second)
  cases laws.sees related with
  | alike alike => exact same _ _ alike related rfl
  | beyond ends ended starts => exact beyond _ _ ends ended starts related ended

/-- A look at the token at the cursor whose position alone is used, in a refusal. -/
theorem mark {next : Token → Exec α} {following : Token → Exec β}
    (same : ∀ token twin, transport.Near token.position twin.position →
      transport.Pairs results (next token) (following twin)) :
    transport.Pairs results (Exec.current left >>= next) (Exec.current right >>= following) := by
  apply laws.see
  · intro token twin alike
    exact (same token twin (.inr alike.position)).at
  · intro token twin ends _ _
    exact (same token twin (.inl ends)).at

/-! ## Reading tokens -/

theorem moveTo {place twin : Nat} (paired : transport.places place twin) :
    transport.Pairs Eq (Exec.moveTo place) (Exec.moveTo twin) :=
  fun _ _ related => .succeeded rfl (laws.moved related paired)

theorem advance {kind : Kind} (proper : kind ≠ .endOfInput) :
    transport.PairsAt left kind (transport.Read left kind) (Exec.advance left)
      (Exec.advance right) := by
  intro first second related known
  have paired := (laws.agree related).cursor
  have here : left.kindAt first.cursor ≠ .endOfInput := known ▸ proper
  have there : right.kindAt second.cursor ≠ .endOfInput := by
    rw [laws.embeds.kind paired here]
    exact here
  rw [Exec.advance_eq here, Exec.advance_eq there]
  exact .succeeded ⟨laws.embeds.alike paired here, known, first.cursor, second.cursor, paired, rfl⟩
    (laws.moved related (laws.embeds.next paired here))

theorem accept {kind : Kind} (proper : kind ≠ .endOfInput) (no : kind ∉ Kind.statementStarts) :
    transport.Pairs Eq (Exec.accept left kind) (Exec.accept right kind) := by
  apply laws.lookBlind
  · intro found starts
    have other : found ≠ kind := fun same => no (same ▸ starts)
    simp [other, proper.symm]
  · intro found
    split
    case _ same => exact (laws.advance (same ▸ proper)).bind fun _ _ _ => .same true
    case _ => exact (Pairs.same false).at

omit laws in
theorem refuseToken_refused (wanted : Kind) :
    RefusedAtEnd left (Exec.refuseToken left wanted : Exec α) :=
  fun _ _ => ⟨_, _, rfl⟩

theorem refuseToken (wanted : Kind) :
    transport.Pairs results (Exec.refuseToken left wanted) (Exec.refuseToken right wanted) := by
  apply laws.see
  · intro token twin alike
    rw [alike.kind]
    exact (laws.refuse _ (.inr alike.position)).at
  · intro token twin ends _ _
    exact .failing ends fun machine => ⟨_, _, rfl⟩

theorem expect {kind : Kind} (proper : kind ≠ .endOfInput) :
    transport.Pairs (transport.Read left kind) (Exec.expect left kind) (Exec.expect right kind) := by
  apply laws.lookProper
  · rw [if_neg proper.symm]
    exact refuseToken_refused kind
  · intro found
    split
    case _ same =>
      subst same
      exact laws.advance proper
    case _ => exact (laws.refuseToken kind).at

theorem expectSymbol (mark : Symbol) :
    transport.Pairs Eq (Exec.expectSymbol left mark) (Exec.expectSymbol right mark) :=
  (laws.expect (by simp)).bind fun _ _ _ => .same ()

theorem acceptSemicolon :
    transport.Pairs Eq (Exec.acceptSemicolon left) (Exec.acceptSemicolon right) :=
  (laws.accept (by simp) (by decide)).then fun _ => .same ()

/-! ## Passing over parts -/

/-- Both executions find the end of a part at the same place. -/
theorem passOver {partEnd otherEnd : (place : Nat) → Except Diagnostic (Ahead place)}
    (related : transport.machines first second)
    (same : transport.Looks transport.SamePlace (partEnd first.cursor) (otherEnd second.cursor)) :
    transport.Outcomes Eq (Exec.passOver partEnd first) (Exec.passOver otherEnd second) := by
  change transport.Outcomes Eq
    ((Exec.ofDiagnosed (partEnd first.cursor) >>= fun next => Exec.moveTo next.val) first)
    ((Exec.ofDiagnosed (otherEnd second.cursor) >>= fun next => Exec.moveTo next.val) second)
  apply bind_outcomes (laws.ofDiagnosed same related)
  intro next other middle between _ paired related
  exact laws.moveTo paired related

theorem passBody : transport.Pairs Eq (Exec.passBody left) (Exec.passBody right) := by
  intro first second related
  have agree := laws.agree related
  change transport.Outcomes Eq (Exec.passOver (left.bodyEnd first.running) first)
    (Exec.passOver (right.bodyEnd second.running) second)
  rw [agree.sameRunning]
  exact laws.passOver related (laws.embeds.bodyEnd agree.running _ _ agree.cursor)

theorem bodyEnd {place there : Nat} (paired : transport.places place there) :
    transport.Pairs transport.places (Exec.bodyEnd left place) (Exec.bodyEnd right there) := by
  apply Pairs.get.bind
  intro machine twin related
  rw [(laws.agree related).sameRunning]
  apply (laws.ofDiagnosed (laws.embeds.bodyEnd (laws.agree related).running _ _ paired)).bind
  intro next other same
  exact .pure same

theorem readType : transport.Pairs Eq (Exec.readType left) (Exec.readType right) := by
  intro first second related
  have agree := laws.agree related
  change transport.Outcomes Eq
    ((Exec.ofDiagnosed (left.typeAt first.cursor) >>= fun type =>
      Exec.advance left >>= fun _ => pure type) first)
    ((Exec.ofDiagnosed (right.typeAt second.cursor) >>= fun type =>
      Exec.advance right >>= fun _ => pure type) second)
  apply bind_outcomes (laws.ofDiagnosed (laws.embeds.typeAt agree.cursor) related)
  rintro type _ middle between found ⟨rfl, _⟩ ahead
  -- The look at the type leaves the machine as it is.
  have proper : left.kindAt middle.cursor ≠ .endOfInput := by
    intro ended
    cases typed : left.typeAt first.cursor with
    | ok known =>
        rw [typed] at found
        cases found
        simp [Script.typeAt, show (left.tokenAt first.cursor).kind = .endOfInput from ended,
          Kind.isType] at typed
    | error diagnostic => rw [typed] at found; cases found
  exact (laws.advance proper).bind (fun _ _ _ => .same type) ahead rfl

theorem separated (closing : Symbol) {item : Exec α} {partner : Exec β} {fuel : Nat}
    (no : .symbol closing ∉ Kind.statementStarts) (items : transport.Pairs results item partner) :
    transport.Pairs (List.Forall₂ results) (Exec.separated left closing item fuel)
      (Exec.separated right closing partner fuel) := by
  induction fuel with
  | zero => exact laws.spent
  | succ fuel ih =>
      apply laws.lookBlind
      · intro kind starts
        have other : kind ≠ .symbol closing := fun same => no (same ▸ starts)
        simp [other]
      · intro found
        split
        · exact (Pairs.pure .nil).at
        · apply Pairs.at
          apply items.bind
          intro first twin same
          apply (laws.accept (by simp) (by decide)).then
          intro more
          split
          · apply ih.bind
            intro rest others alike
            exact .pure (.cons same alike)
          · exact .pure (.cons same .nil)

theorem separatedSame (closing : Symbol) {item partner : Exec α} {fuel : Nat}
    (no : .symbol closing ∉ Kind.statementStarts) (items : transport.Pairs Eq item partner) :
    transport.Pairs Eq (Exec.separated left closing item fuel)
      (Exec.separated right closing partner fuel) := by
  intro first second related
  have outcomes : transport.Outcomes (List.Forall₂ Eq)
      (Exec.separated left closing item fuel first)
      (Exec.separated right closing partner fuel second) :=
    laws.separated closing no items related
  rwa [List.forall₂_eq_eq_eq] at outcomes

/-! ## Looking at values -/

theorem describe (value : Value) :
    transport.Pairs Eq (Exec.describe value) (Exec.describe value) := by
  intro first second related
  apply Outcomes.succeeded _ related
  rw [(laws.agree related).heap]

theorem conforms (value : Value) (type : DeclaredType) :
    transport.Pairs Eq (Exec.conforms value type) (Exec.conforms value type) := by
  intro first second related
  apply Outcomes.succeeded _ related
  rw [(laws.agree related).heap]

theorem retag (value : Value) (type : DeclaredType) :
    transport.Pairs Eq (Exec.retag value type) (Exec.retag value type) := by
  intro first second related
  apply Outcomes.succeeded rfl
  change transport.machines { first with heap := first.heap.retag value type }
    { second with heap := second.heap.retag value type }
  rw [(laws.agree related).heap]
  exact laws.stored related _

theorem allocate (items : List Value) (type : Option DeclaredType) :
    transport.Pairs Eq (Exec.allocate items type) (Exec.allocate items type) := by
  intro first second related
  have same := (laws.agree related).heap
  change transport.Outcomes Eq
    (.ok (Value.array (first.heap.allocate items.toArray type).2)
      { first with heap := (first.heap.allocate items.toArray type).1 })
    (.ok (Value.array (second.heap.allocate items.toArray type).2)
      { second with heap := (second.heap.allocate items.toArray type).1 })
  rw [same]
  exact .succeeded rfl (laws.stored related _)

theorem printed (value : Value) :
    transport.Pairs Eq (Exec.printed value) (Exec.printed value) := by
  apply Pairs.get.bind
  intro machine other related
  rw [(laws.agree related).heap]
  split
  · exact .same _
  · exact .throw laws.endless

variable {token twin : Token}

section

variable (near : transport.Near token.position twin.position)

include near

/-- A refusal that describes a value. -/
theorem refuseDescribed (value : Value) (cause : DeclaredType → Cause) :
    transport.Pairs results
      (Exec.describe value >>= fun type => Exec.refuse (cause type) token.position)
      (Exec.describe value >>= fun type => Exec.refuse (cause type) twin.position) :=
  (laws.describe value).then fun _ => laws.refuse _ near

theorem applyBinary (operator : BinaryOperator) (one two : Value) :
    transport.Pairs Eq (Exec.applyBinary token operator one two)
      (Exec.applyBinary twin operator one two) := by
  apply Pairs.get.bind
  intro machine other related
  rw [(laws.agree related).heap]
  exact laws.located near _

theorem placeOf (length : Nat) (index : Value) :
    transport.Pairs Eq (Exec.placeOf length index token) (Exec.placeOf length index twin) := by
  unfold Exec.placeOf
  split
  · split
    · exact laws.refuse _ near
    · split
      · exact .same _
      · split
        · exact .throw (laws.limit _)
        · exact laws.refuse _ near
  · exact laws.refuseDescribed near index .indexNotNumber

theorem elementAt (container index : Value) :
    transport.Pairs Eq (Exec.elementAt container index token)
      (Exec.elementAt container index twin) := by
  unfold Exec.elementAt
  split
  · apply Pairs.get.bind
    intro machine other related
    rw [(laws.agree related).heap]
    apply (laws.placeOf near _ index).then
    intro place
    apply Pairs.get.bind
    intro machine other related
    rw [(laws.agree related).heap]
    exact .same _
  · exact (laws.placeOf near _ index).then fun _ => .same _
  · exact laws.refuseDescribed near container .notIndexable

theorem lengthOf (value : Value) :
    transport.Pairs Eq (Exec.lengthOf value token) (Exec.lengthOf value twin) := by
  unfold Exec.lengthOf
  split
  · apply Pairs.get.bind
    intro machine other related
    rw [(laws.agree related).heap]
    exact .same _
  · exact .same _
  · exact laws.refuseDescribed near value .noLength

end

variable (alike : Token.Alike transport.positions token twin)

include alike

theorem bindingOf : transport.Pairs Eq (Exec.bindingOf token) (Exec.bindingOf twin) := by
  apply Pairs.get.bind
  intro machine other related
  rw [alike.word, (laws.agree related).binding]
  split
  · exact .same _
  · exact laws.refuse _ (.inr alike.position)

theorem valueOf : transport.Pairs Eq (Exec.valueOf token) (Exec.valueOf twin) :=
  (laws.bindingOf alike).then fun binding => .same binding.value

theorem testOrConvert (test : Bool) (value : Value) :
    transport.Pairs Eq (Exec.testOrConvert test value token)
      (Exec.testOrConvert test value twin) := by
  unfold Exec.testOrConvert
  rw [alike.word]
  split
  · apply Pairs.get.bind
    intro machine other related
    rw [(laws.agree related).heap]
    split
    · exact .same _
    · exact laws.refuse _ (.inr alike.position)
  · apply Pairs.get.bind
    intro machine other related
    rw [(laws.agree related).heap]
    exact laws.located (.inr alike.position) _

end Onepass.Transport.Laws
