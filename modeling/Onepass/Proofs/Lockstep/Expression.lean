import Onepass.Proofs.Lockstep.Reading

/-! # Expressions and calls in step

Expressions are read and evaluated alike on related machines, and so are calls: the body of a function
is executed on machines that are related because the call began on related ones, and the callers are
put back on both sides.
-/

set_option autoImplicit false

namespace Onepass.Coupling.Laws

variable {coupling : Coupling} {left right : Script} (laws : coupling.Laws left right)
variable {evaluator partner : Evaluator} {fuel more : Nat}

include laws

/-! ## Literals -/

theorem stringLiteral (rounds : coupling.Rounds fuel more) :
    coupling.Pairs Eq (Exec.stringLiteral left fuel) (Exec.stringLiteral right more) := by
  induction rounds with
  | spent none => exact .spent _ none rfl
  | another rounds ih =>
      apply laws.currentKind.then
      intro found
      split
      · apply laws.advance.bind
        intro token twin alike
        rw [alike.word]
        exact ih.then fun _ => .same _
      · apply laws.advance.bind
        intro token twin alike
        apply (laws.stores.valueOf alike).then
        intro value
        apply (laws.stores.printed value).then
        intro text
        exact ih.then fun _ => .same _
      · exact .same ""

theorem checkedArray (element : DeclaredType) {item other : Exec Value}
    (items : coupling.Pairs Eq item other) (rounds : coupling.Rounds fuel more) :
    coupling.Pairs Eq (Exec.checkedArray left element item fuel)
      (Exec.checkedArray right element other more) := by
  have checked : coupling.Pairs Eq (Exec.checkedArray.checked left element item)
      (Exec.checkedArray.checked right element other) := by
    apply laws.current.bind
    intro token twin alike
    apply items.then
    intro value
    apply (laws.stores.conforms value element).then
    intro fits
    split
    · exact .same value
    · exact laws.stores.refuseDescribed alike.position value fun found => .assignmentMismatch found element
  apply (laws.expectSymbol .leftBracket).then
  intro _
  apply (laws.separatedSame .rightBracket checked rounds).then
  intro values
  apply (laws.expectSymbol .rightBracket).then
  intro _
  exact laws.stores.allocate values (some element)

theorem declaredArray (evaluators : coupling.Evaluators evaluator partner)
    (rounds : coupling.Rounds fuel more) (base : String) (dimensions : Nat) :
    coupling.Pairs Eq (Exec.declaredArray left evaluator fuel base dimensions)
      (Exec.declaredArray right partner more base dimensions) := by
  induction dimensions with
  | zero => exact laws.checkedArray _ evaluators.expression rounds
  | succ dimensions ih =>
      apply laws.checkedArray _ _ rounds
      apply laws.currentKind.then
      intro found
      split
      · exact ih
      · exact evaluators.expression

theorem freeArray (evaluators : coupling.Evaluators evaluator partner)
    (rounds : coupling.Rounds fuel more) :
    coupling.Pairs Eq (Exec.freeArray left evaluator fuel) (Exec.freeArray right partner more) := by
  apply (laws.expectSymbol .leftBracket).then
  intro _
  apply (laws.separatedSame .rightBracket evaluators.expression rounds).then
  intro items
  apply (laws.expectSymbol .rightBracket).then
  intro _
  apply Pairs.get.bind
  intro machine other related
  rw [(laws.agree related).heap]
  split
  · exact laws.stores.allocate items _
  · exact laws.current.bind fun _ _ alike => .refuse _ alike.position

/-! ## Operands and operators -/

theorem primary (evaluators : coupling.Evaluators evaluator partner)
    {call otherCall : Exec Value} (calls : coupling.Pairs Eq call otherCall) (rounds : coupling.Rounds fuel more) :
    coupling.Pairs Eq (Exec.primary left evaluator call fuel)
      (Exec.primary right partner otherCall more) := by
  apply laws.current.bind
  intro token twin alike
  rw [alike.kind, alike.word]
  split
  · exact laws.advance.bind fun _ _ _ => .same _
  · exact (laws.stringLiteral rounds).then fun _ => .same _
  · exact (laws.stringLiteral rounds).then fun _ => .same _
  · apply laws.advance.bind
    intro _ _ _
    split
    · exact .refuse _ alike.position
    · exact .same _
  · exact laws.advance.bind fun _ _ _ => .same _
  · exact laws.advance.bind fun _ _ _ => .same _
  · apply laws.advance.bind
    intro _ _ _
    apply evaluators.expression.then
    intro value
    exact (laws.expectSymbol .rightParen).then fun _ => .same value
  · exact laws.freeArray evaluators rounds
  · apply laws.followingKind.then
    intro following
    split
    · exact calls
    · exact laws.advance.bind fun _ _ _ => laws.stores.valueOf alike
  · apply laws.advance.bind
    intro _ _ _
    exact (laws.expect .identifier).bind fun _ _ named => laws.stores.valueOf named
  · exact .refuse _ alike.position

theorem suffixes (evaluators : coupling.Evaluators evaluator partner)
    (rounds : coupling.Rounds fuel more) (value : Value) :
    coupling.Pairs Eq (Exec.suffixes left evaluator fuel value)
      (Exec.suffixes right partner more value) := by
  induction rounds generalizing value with
  | spent none => exact .spent (fun rounds => Exec.suffixes right partner rounds value) none rfl
  | another rounds ih =>
      apply laws.currentKind.then
      intro found
      split
      · apply laws.advance.bind
        intro _ _ _
        apply laws.current.bind
        intro token twin alike
        apply evaluators.expression.then
        intro index
        apply (laws.expectSymbol .rightBracket).then
        intro _
        exact (laws.stores.elementAt alike.position value index).then fun element => ih element
      · apply laws.advance.bind
        intro _ _ _
        apply (laws.expect .identifier).bind
        intro member twin alike
        rw [alike.word]
        split
        · exact .refuse _ alike.position
        · exact (laws.stores.lengthOf alike.position value).then fun length => ih length
      · exact .same value

theorem unary (evaluators : coupling.Evaluators evaluator partner)
    {call otherCall : Exec Value} (calls : coupling.Pairs Eq call otherCall) (rounds : coupling.Rounds fuel more) :
    coupling.Pairs Eq (Exec.unary left evaluator call fuel)
      (Exec.unary right partner otherCall more) := by
  induction rounds with
  | spent none => exact .spent _ none rfl
  | another rounds ih =>
      apply laws.current.bind
      intro token twin alike
      rw [alike.kind]
      split
      · apply laws.advance.bind
        intro _ _ _
        exact ih.then fun value => .located alike.position _
      · apply (laws.primary evaluators calls rounds).then
        intro value
        exact laws.suffixes evaluators rounds value

theorem chain (rank : Rank) {operand other : Exec Value} (operands : coupling.Pairs Eq operand other)
    (rounds : coupling.Rounds fuel more) (first : Value) :
    coupling.Pairs Eq (Exec.chain left rank operand fuel first)
      (Exec.chain right rank other more first) := by
  induction rounds generalizing first with
  | spent none => exact .spent (fun rounds => Exec.chain right rank other rounds first) none rfl
  | another rounds ih =>
      apply laws.current.bind
      intro token twin alike
      rw [alike.kind]
      split
      · apply laws.advance.bind
        intro _ _ _
        apply operands.then
        intro second
        exact (laws.stores.applyBinary alike.position _ first second).then fun value => ih value
      · exact .same first

theorem ranked (rank : Rank) {operand other : Exec Value} (operands : coupling.Pairs Eq operand other)
    (rounds : coupling.Rounds fuel more) :
    coupling.Pairs Eq (Exec.ranked left rank operand fuel) (Exec.ranked right rank other more) :=
  operands.then fun first => laws.chain rank operands rounds first

theorem typeTests (rounds : coupling.Rounds fuel more) (value : Value) :
    coupling.Pairs Eq (Exec.typeTests left fuel value) (Exec.typeTests right more value) := by
  induction rounds generalizing value with
  | spent none => exact .spent (fun rounds => Exec.typeTests right rounds value) none rfl
  | another rounds ih =>
      apply laws.currentKind.then
      intro operator
      split
      · apply laws.advance.bind
        intro _ _ _
        apply laws.current.bind
        intro target twin alike
        rw [alike.kind, alike.shown]
        split
        · apply laws.advance.bind
          intro _ _ _
          exact (laws.stores.testOrConvert alike _ value).then fun result => ih result
        · exact .refuse _ alike.position
      · exact .same value

theorem comparison (evaluators : coupling.Evaluators evaluator partner)
    {call otherCall : Exec Value} (calls : coupling.Pairs Eq call otherCall) (rounds : coupling.Rounds fuel more) :
    coupling.Pairs Eq (Exec.comparison left evaluator call fuel)
      (Exec.comparison right partner otherCall more) := by
  have products := laws.ranked .product (laws.unary evaluators calls rounds) rounds
  have sums := laws.ranked .sum products rounds
  have operands : coupling.Pairs Eq (Exec.typeTest left evaluator call fuel)
      (Exec.typeTest right partner otherCall more) :=
    sums.then fun value => laws.typeTests rounds value
  apply operands.then
  intro first
  apply laws.current.bind
  intro token twin alike
  rw [alike.kind]
  split
  · apply laws.advance.bind
    intro _ _ _
    exact operands.then fun second => laws.stores.applyBinary alike.position _ first second
  · exact .same first

theorem disjunction (evaluators : coupling.Evaluators evaluator partner)
    {call otherCall : Exec Value} (calls : coupling.Pairs Eq call otherCall) (rounds : coupling.Rounds fuel more) :
    coupling.Pairs Eq (Exec.disjunction left evaluator call fuel)
      (Exec.disjunction right partner otherCall more) :=
  laws.ranked .disjunction
    (laws.ranked .conjunction (laws.comparison evaluators calls rounds) rounds) rounds

end Onepass.Coupling.Laws

/-! ## Calls -/

namespace Onepass.Coupling.Stores

variable {coupling : Coupling} (stores : coupling.Stores)
variable {evaluator partner : Evaluator} {fuel more : Nat}

include stores

theorem checkArguments (function : String) {given other : List (Token × Value)}
    (same : List.Forall₂ coupling.SameAt given other) (parameters : List Parameter) :
    coupling.Pairs Eq (Exec.checkArguments function (parameters.zip given))
      (Exec.checkArguments function (parameters.zip other)) := by
  induction same generalizing parameters with
  | nil =>
      rw [List.zip_nil_right]
      exact .same ()
  | @cons argument twin given other first rest ih =>
      cases parameters with
      | nil => exact .same ()
      | cons parameter parameters =>
          obtain ⟨token, value⟩ := argument
          obtain ⟨other, _⟩ := twin
          obtain ⟨near, rfl⟩ := first
          rw [List.zip_cons_cons, List.zip_cons_cons]
          unfold Exec.checkArguments
          split
          · apply (stores.conforms value _).then
            intro fits
            split
            · exact ih parameters
            · exact stores.refuseDescribed near value fun found =>
                .argumentMismatch parameter.name function _ found
          · exact ih parameters

/-- A call is performed alike if the function that it leads to is. -/
theorem performCall {name other : Token} (alike : Token.Alike coupling.positions name other)
    {given others : List (Token × Value)} (same : List.Forall₂ coupling.SameAt given others)
    (invoked : ∀ {first second}, coupling.machines first second →
      second.frames.length < Exec.maxCallDepth → ∀ function,
        coupling.Outcomes Eq (Exec.invoke evaluator function (others.map Prod.snd) name fuel first)
          (Exec.invoke partner function (others.map Prod.snd) other more second)) :
    coupling.Pairs Eq (Exec.performCall evaluator name given fuel)
      (Exec.performCall partner other others more) := by
  apply Pairs.get.bind
  intro machine twin related
  rw [(stores.same related).functions, alike.word, same.length_eq, SameAt.values same]
  split
  · exact .refuse _ alike.position
  · split
    · exact .refuse _ alike.position
    · apply (stores.checkArguments _ same _).then
      intro _ first second related
      change coupling.Outcomes Eq
        ((if Exec.maxCallDepth ≤ first.frames.length then _ else _ : Exec Value) first)
        ((if Exec.maxCallDepth ≤ second.frames.length then _ else _ : Exec Value) second)
      rw [(stores.same related).depth]
      by_cases deep : Exec.maxCallDepth ≤ second.frames.length
      · rw [if_pos deep, if_pos deep]
        exact Pairs.refuse _ alike.position related
      · rw [if_neg deep, if_neg deep]
        exact invoked related (by omega) _

end Onepass.Coupling.Stores

namespace Onepass.Coupling.Laws

variable {coupling : Coupling} {left right : Script} (laws : coupling.Laws left right)
variable {evaluator partner : Evaluator} {fuel more : Nat}

include laws

theorem statementsUntil {statement other : Exec Signal} (same : coupling.Pairs Eq statement other)
    (finish : Nat) (rounds : coupling.Rounds fuel more) :
    coupling.Pairs Eq (Exec.statementsUntil statement finish fuel)
      (Exec.statementsUntil other finish more) := by
  induction rounds with
  | spent none => exact .spent _ none rfl
  | another rounds ih =>
      apply Pairs.get.bind
      intro machine twin related
      rw [(laws.agree related).cursor]
      split
      · apply same.then
        intro signal
        split
        · exact ih
        · exact .same _
      · exact .same Signal.normal

theorem callBody {statement other : Exec Signal} (same : coupling.Pairs Eq statement other)
    (finish : Nat) (rounds : coupling.Rounds fuel more) :
    coupling.Pairs Eq (Exec.callBody statement finish fuel) (Exec.callBody other finish more) := by
  apply (laws.statementsUntil same finish rounds).then
  intro signal
  apply Pairs.get.bind
  intro machine twin related
  rw [(laws.agree related).returned]
  exact .same _

omit laws in
theorem callResult (function : Function) {name other : Token}
    (near : coupling.positions name.position other.position) (ended : Signal × Value) :
    coupling.Pairs Eq (Exec.callResult function name ended)
      (Exec.callResult function other ended) := by
  unfold Exec.callResult
  split
  · exact .same _
  · split
    · exact .same _
    · exact .refuse _ near

/-- The body of a function is executed alike if the call begins on related machines. -/
theorem body_outcomes (evaluators : coupling.Evaluators evaluator partner)
    (rounds : coupling.Rounds fuel more) {first second : Machine}
    (related : coupling.machines first second) (function : Function) (arguments : List Value)
    (begun : coupling.machines (Exec.enterCall function arguments first)
      (Exec.enterCall function arguments second)) :
    coupling.Outcomes Eq
      (Exec.ensuring (Exec.leaveCall first.cursor first.loopDepth)
        (Exec.callBody evaluator.statement function.finish fuel)
        (Exec.enterCall function arguments first))
      (Exec.ensuring (Exec.leaveCall second.cursor second.loopDepth)
        (Exec.callBody partner.statement function.finish more)
        (Exec.enterCall function arguments second)) := by
  have outcomes := laws.callBody evaluators.statement function.finish rounds begun
  obtain ⟨added, kept⟩ := controlDiscipline.callBody evaluators.control.statement
    function.finish more (Exec.enterCall function arguments second)
  apply outcomes.ensuring id id
  intro inside ended
  exact laws.returned related function arguments added kept ended

theorem performCall (evaluators : coupling.Evaluators evaluator partner)
    (rounds : coupling.Rounds fuel more) {name other : Token}
    (alike : Token.Alike coupling.positions name other) {given others : List (Token × Value)}
    (same : List.Forall₂ coupling.SameAt given others) :
    coupling.Pairs Eq (Exec.performCall evaluator name given fuel)
      (Exec.performCall partner other others more) := by
  apply laws.stores.performCall alike same
  intro first second related shallow function
  rw [Exec.invoke_eq, Exec.invoke_eq]
  apply bind_outcomes (laws.body_outcomes evaluators rounds related _ _
    (laws.entered related shallow _ _))
  rintro ended _ middle between _ rfl inside
  exact callResult _ alike.position ended inside

theorem call (evaluators : coupling.Evaluators evaluator partner)
    (rounds : coupling.Rounds fuel more) :
    coupling.Pairs Eq (Exec.call left evaluator fuel) (Exec.call right partner more) := by
  have argument : coupling.Pairs coupling.SameAt
      (do
        let token ← Exec.current left
        return (token, ← evaluator.expression))
      (do
        let token ← Exec.current right
        return (token, ← partner.expression)) := by
    apply laws.current.bind
    intro token twin alike
    exact evaluators.expression.then fun value => .pure ⟨alike.position, rfl⟩
  rw [Exec.call_eq, Exec.call_eq]
  apply (laws.expect .identifier).bind
  intro name twin alike
  apply (laws.expectSymbol .leftParen).then
  intro _
  apply (laws.separated .rightParen argument rounds).bind
  intro given others same
  apply (laws.expectSymbol .rightParen).then
  intro _
  exact laws.performCall evaluators rounds alike same

end Onepass.Coupling.Laws
