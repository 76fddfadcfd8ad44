import Onepass.Proofs.Transport.Reading

/-! # Expressions and calls in another script

An expression that is evaluated at the end of a script looks at what follows it: further pieces of a
string, indices, operators, type tests. None of them is the beginning of a statement. Calls lead to the
bodies of functions, which stand at places that correspond.
-/

set_option autoImplicit false

namespace Onepass

theorem Kind.unary?_of_starts {kind : Kind} (starts : kind ∈ statementStarts) :
    kind.unary? = none := by
  revert kind
  decide

theorem Kind.binaryOf?_of_starts {kind : Kind} (starts : kind ∈ statementStarts) (rank : Rank) :
    kind.binaryOf? rank = none := by
  have none : kind.binary? = none := by
    revert kind
    decide
  simp [binaryOf?, none]

namespace Transport.Laws

variable {transport : Transport} {left right : Script} (laws : transport.Laws left right)
variable {evaluator partner : Evaluator} {fuel : Nat}

include laws

/-! ## Literals -/

theorem stringLiteral :
    transport.Pairs Eq (Exec.stringLiteral left fuel) (Exec.stringLiteral right fuel) := by
  induction fuel with
  | zero => exact laws.spent
  | succ fuel ih =>
      apply laws.lookBlind (by simp [Kind.statementStarts])
      intro found
      split
      · apply (laws.advance (by simp)).bind
        intro token twin read
        rw [read.alike.word]
        exact ih.then fun _ => .same _
      · apply (laws.advance (by simp)).bind
        intro token twin read
        apply (laws.valueOf read.alike).then
        intro value
        apply (laws.printed value).then
        intro text
        exact ih.then fun _ => .same _
      · exact (Pairs.same "").at

theorem checkedArray (element : DeclaredType) {item other : Exec Value}
    (items : transport.Pairs Eq item other) :
    transport.Pairs Eq (Exec.checkedArray left element item fuel)
      (Exec.checkedArray right element other fuel) := by
  have checked : transport.Pairs Eq (Exec.checkedArray.checked left element item)
      (Exec.checkedArray.checked right element other) := by
    apply laws.mark
    intro token twin near
    apply items.then
    intro value
    apply (laws.conforms value element).then
    intro fits
    split
    · exact .same value
    · exact laws.refuseDescribed near value fun found => .assignmentMismatch found element
  apply (laws.expectSymbol .leftBracket).then
  intro _
  apply (laws.separatedSame .rightBracket (by decide) checked).then
  intro values
  apply (laws.expectSymbol .rightBracket).then
  intro _
  exact laws.allocate values (some element)

theorem declaredArray (evaluators : transport.Evaluators left evaluator partner) (base : String)
    (dimensions : Nat) :
    transport.Pairs Eq (Exec.declaredArray left evaluator fuel base dimensions)
      (Exec.declaredArray right partner fuel base dimensions) := by
  induction dimensions with
  | zero => exact laws.checkedArray _ evaluators.expression
  | succ dimensions ih =>
      apply laws.checkedArray
      apply laws.lookBlind (by simp [Kind.statementStarts])
      intro found
      split
      · exact ih.at
      · exact evaluators.expression.at

theorem freeArray (evaluators : transport.Evaluators left evaluator partner) :
    transport.Pairs Eq (Exec.freeArray left evaluator fuel) (Exec.freeArray right partner fuel) := by
  apply (laws.expectSymbol .leftBracket).then
  intro _
  apply (laws.separatedSame .rightBracket (by decide) evaluators.expression).then
  intro items
  apply (laws.expectSymbol .rightBracket).then
  intro _
  apply Pairs.get.bind
  intro machine other related
  rw [(laws.agree related).heap]
  split
  · exact laws.allocate items _
  · exact laws.mark fun _ _ near => laws.refuse _ near

/-! ## Operands and operators -/

theorem primary (evaluators : transport.Evaluators left evaluator partner)
    {call otherCall : Exec Value} (calls : transport.Pairs Eq call otherCall) :
    transport.Pairs Eq (Exec.primary left evaluator call fuel)
      (Exec.primary right partner otherCall fuel) := by
  apply laws.see
  · intro token twin alike
    rw [← alike.kind, ← alike.word]
    generalize kinds : token.kind = kind
    split
    · exact (laws.advance (by simp)).bind fun _ _ _ => .same _
    · exact (laws.stringLiteral.then fun _ => .same _).at
    · exact (laws.stringLiteral.then fun _ => .same _).at
    · apply (laws.advance (by simp)).bind
      intro _ _ _
      split
      · exact laws.refuse _ (.inr alike.position)
      · exact .same _
    · exact (laws.advance (by simp)).bind fun _ _ _ => .same _
    · exact (laws.advance (by simp)).bind fun _ _ _ => .same _
    · apply (laws.advance (by simp)).bind
      intro _ _ _
      apply evaluators.expression.then
      intro value
      exact (laws.expectSymbol .rightParen).then fun _ => .same value
    · exact (laws.freeArray evaluators).at
    · intro first second related known
      have agree := laws.agree related
      have follows : (right.kindAt (second.cursor + 1) = .symbol .leftParen) =
          (left.kindAt (first.cursor + 1) = .symbol .leftParen) := by
        exact laws.embeds.follows (by simp) (by decide)
          (laws.embeds.next agree.cursor (by simp [known]))
      change transport.Outcomes Eq
        ((if left.kindAt (first.cursor + 1) = .symbol .leftParen then _ else _ : Exec Value) first)
        ((if right.kindAt (second.cursor + 1) = .symbol .leftParen then _ else _ : Exec Value) second)
      simp only [follows]
      split
      · exact calls related
      · exact (laws.advance (by simp)).bind (fun _ _ _ => laws.valueOf alike) related known
    · apply (laws.advance (by simp)).bind
      intro _ _ _
      exact (laws.expect (by simp)).bind fun _ _ named => laws.valueOf named.alike
    · exact (laws.refuse _ (.inr alike.position)).at
  · intro token twin ends ended _
    apply PairsAt.failing ends
    intro machine
    simp only [ended]
    exact ⟨_, _, rfl⟩

theorem suffixes (evaluators : transport.Evaluators left evaluator partner) (value : Value) :
    transport.Pairs Eq (Exec.suffixes left evaluator fuel value)
      (Exec.suffixes right partner fuel value) := by
  induction fuel generalizing value with
  | zero => exact laws.spent
  | succ fuel ih =>
      apply laws.lookBlind (by simp [Kind.statementStarts])
      intro found
      split
      · apply (laws.advance (by simp)).bind
        intro _ _ _
        apply laws.mark
        intro token twin near
        apply evaluators.expression.then
        intro index
        apply (laws.expectSymbol .rightBracket).then
        intro _
        exact (laws.elementAt near value index).then fun element => ih element
      · apply (laws.advance (by simp)).bind
        intro _ _ _
        apply (laws.expect (by simp)).bind
        intro member twin read
        rw [read.alike.word]
        split
        · exact laws.refuse _ (.inr read.alike.position)
        · exact (laws.lengthOf (.inr read.alike.position) value).then fun length => ih length
      · exact (Pairs.same value).at

theorem unary (evaluators : transport.Evaluators left evaluator partner)
    {call otherCall : Exec Value} (calls : transport.Pairs Eq call otherCall) :
    transport.Pairs Eq (Exec.unary left evaluator call fuel)
      (Exec.unary right partner otherCall fuel) := by
  induction fuel with
  | zero => exact laws.spent
  | succ fuel ih =>
      have operand : transport.Pairs Eq
          (Exec.primary left evaluator call fuel >>= Exec.suffixes left evaluator fuel)
          (Exec.primary right partner otherCall fuel >>= Exec.suffixes right partner fuel) :=
        (laws.primary evaluators calls).then fun value => laws.suffixes evaluators value
      apply laws.see
      · intro token twin alike
        rw [← alike.kind]
        split
        case _ operator known =>
          have proper : token.kind ≠ .endOfInput := by
            intro ended
            simp [ended, Kind.unary?] at known
          apply (laws.advance proper).bind
          intro _ _ _
          exact ih.then fun value => laws.located (.inr alike.position) _
        case _ => exact operand.at
      · intro token twin _ ended starts
        simp only [ended, Kind.unary?_of_starts starts]
        exact operand.at

theorem chain (rank : Rank) {operand other : Exec Value}
    (operands : transport.Pairs Eq operand other) (one : Value) :
    transport.Pairs Eq (Exec.chain left rank operand fuel one)
      (Exec.chain right rank other fuel one) := by
  induction fuel generalizing one with
  | zero => exact laws.spent
  | succ fuel ih =>
      apply laws.see
      · intro token twin alike
        rw [← alike.kind]
        split
        case _ operator known =>
          have proper : token.kind ≠ .endOfInput := by
            intro ended
            simp [ended, Kind.binaryOf?, Kind.binary?] at known
          apply (laws.advance proper).bind
          intro _ _ _
          apply operands.then
          intro two
          exact (laws.applyBinary (.inr alike.position) _ one two).then fun value => ih value
        case _ => exact (Pairs.same one).at
      · intro token twin _ ended starts
        simp only [ended, Kind.binaryOf?_of_starts starts]
        exact (Pairs.same one).at

theorem ranked (rank : Rank) {operand other : Exec Value}
    (operands : transport.Pairs Eq operand other) :
    transport.Pairs Eq (Exec.ranked left rank operand fuel) (Exec.ranked right rank other fuel) :=
  operands.then fun one => laws.chain rank operands one

theorem typeTests (value : Value) :
    transport.Pairs Eq (Exec.typeTests left fuel value) (Exec.typeTests right fuel value) := by
  induction fuel generalizing value with
  | zero => exact laws.spent
  | succ fuel ih =>
      apply laws.lookBlind (by simp [Kind.statementStarts])
      intro operator
      split
      case _ known =>
        have proper : operator ≠ .endOfInput := by
          rintro rfl
          simp at known
        apply (laws.advance proper).bind
        intro _ _ _
        apply laws.see
        · intro target twin alike
          rw [← alike.kind, ← alike.shown]
          split
          case _ isType =>
            have typed : target.kind ≠ .endOfInput := by
              intro ended
              simp [ended, Kind.isType] at isType
            apply (laws.advance typed).bind
            intro _ _ _
            exact (laws.testOrConvert alike _ value).then fun result => ih result
          case _ => exact (laws.refuse _ (.inr alike.position)).at
        · intro target twin ends ended _
          apply PairsAt.failing ends
          intro machine
          rw [if_neg (by simp [ended, Kind.isType])]
          exact ⟨_, _, rfl⟩
      case _ => exact (Pairs.same value).at

theorem comparison (evaluators : transport.Evaluators left evaluator partner)
    {call otherCall : Exec Value} (calls : transport.Pairs Eq call otherCall) :
    transport.Pairs Eq (Exec.comparison left evaluator call fuel)
      (Exec.comparison right partner otherCall fuel) := by
  have operands : transport.Pairs Eq (Exec.typeTest left evaluator call fuel)
      (Exec.typeTest right partner otherCall fuel) := by
    apply (laws.ranked .sum (laws.ranked .product (laws.unary evaluators calls))).then
    intro value
    exact laws.typeTests value
  apply operands.then
  intro one
  apply laws.see
  · intro token twin alike
    rw [← alike.kind]
    split
    case _ operator known =>
      have proper : token.kind ≠ .endOfInput := by
        intro ended
        simp [ended, Kind.binaryOf?, Kind.binary?] at known
      apply (laws.advance proper).bind
      intro _ _ _
      exact operands.then fun two => laws.applyBinary (.inr alike.position) _ one two
    case _ => exact (Pairs.same one).at
  · intro token twin _ ended starts
    simp only [ended, Kind.binaryOf?_of_starts starts]
    exact (Pairs.same one).at

theorem disjunction (evaluators : transport.Evaluators left evaluator partner)
    {call otherCall : Exec Value} (calls : transport.Pairs Eq call otherCall) :
    transport.Pairs Eq (Exec.disjunction left evaluator call fuel)
      (Exec.disjunction right partner otherCall fuel) :=
  laws.ranked .disjunction (laws.ranked .conjunction (laws.comparison evaluators calls))

/-! ## Calls -/

/-- Both executions read the name of a function and the parenthesis that follows it. -/
theorem readCalled {α β : Type} {results : α → β → Prop} {next : Token → Exec α}
    {following : Token → Exec β}
    (rest : ∀ name twin, transport.Called left name twin →
      transport.Pairs results (next name) (following twin)) :
    transport.Pairs results
      (Exec.expect left .identifier >>= fun name =>
        Exec.expectSymbol left .leftParen >>= fun _ => next name)
      (Exec.expect right .identifier >>= fun name =>
        Exec.expectSymbol right .leftParen >>= fun _ => following name) := by
  intro first second related
  apply bind_outcomes (laws.expect (by simp) related)
  intro name twin middle between named read ready
  obtain ⟨identifier, rfl, rfl⟩ := Exec.expect_ok (by simp) named
  apply bind_outcomes (laws.expectSymbol .leftParen ready)
  rintro _ _ _ _ opened _ called
  have parenthesis := (Exec.expectSymbol_ok opened).1
  exact rest _ _ ⟨read.alike, first.cursor, second.cursor, (laws.agree related).cursor, rfl,
    identifier, parenthesis⟩ called

/-- The same value, found at positions that count as the same or need not. -/
def SameAt (transport : Transport) (found twin : Token × Value) : Prop :=
  transport.Near found.1.position twin.1.position ∧ found.2 = twin.2

omit laws in
theorem values_of_sameAt {found others : List (Token × Value)}
    (same : List.Forall₂ (SameAt transport) found others) :
    found.map Prod.snd = others.map Prod.snd := by
  induction same with
  | nil => rfl
  | cons first _ ih => rw [List.map_cons, List.map_cons, first.2, ih]

theorem checkArguments (function : String) {given others : List (Token × Value)}
    (same : List.Forall₂ (SameAt transport) given others) (parameters : List Parameter) :
    transport.Pairs Eq (Exec.checkArguments function (parameters.zip given))
      (Exec.checkArguments function (parameters.zip others)) := by
  induction same generalizing parameters with
  | nil =>
      rw [List.zip_nil_right]
      exact .same ()
  | @cons argument twin given others first rest ih =>
      cases parameters with
      | nil => exact .same ()
      | cons parameter parameters =>
          obtain ⟨token, value⟩ := argument
          obtain ⟨other, _⟩ := twin
          obtain ⟨near, rfl⟩ := first
          rw [List.zip_cons_cons, List.zip_cons_cons]
          unfold Exec.checkArguments
          split
          · apply (laws.conforms value _).then
            intro fits
            split
            · exact ih parameters
            · exact laws.refuseDescribed near value fun found =>
                .argumentMismatch parameter.name function _ found
          · exact ih parameters

theorem statementsUntil {statement other : Exec Signal} (same : transport.Pairs Eq statement other)
    {finish stop : Nat} (paired : transport.places finish stop) :
    transport.Pairs Eq (Exec.statementsUntil statement finish fuel)
      (Exec.statementsUntil other stop fuel) := by
  induction fuel with
  | zero => exact laws.spent
  | succ fuel ih =>
      apply Pairs.get.bind
      intro machine twin related
      simp only [laws.embeds.ordered (laws.agree related).cursor paired]
      split
      · apply same.then
        intro signal
        split
        · exact ih
        · exact .same _
      · exact .same Signal.normal

theorem callBody {statement other : Exec Signal} (same : transport.Pairs Eq statement other)
    {finish stop : Nat} (paired : transport.places finish stop) :
    transport.Pairs Eq (Exec.callBody statement finish fuel) (Exec.callBody other stop fuel) := by
  apply (laws.statementsUntil same paired).then
  intro signal
  apply Pairs.get.bind
  intro machine twin related
  rw [(laws.agree related).returned]
  exact .same _

theorem callResult {function twin : Function} (signature : function.SameSignature twin)
    {name other : Token} (near : transport.Near name.position other.position)
    (ended : Signal × Value) :
    transport.Pairs Eq (Exec.callResult function name ended)
      (Exec.callResult twin other ended) := by
  unfold Exec.callResult
  split
  · exact .same _
  · rw [signature.returnType, signature.name]
    split
    · exact .same _
    · exact laws.refuse _ near

theorem performCall (evaluators : transport.Evaluators left evaluator partner) {name other : Token}
    (called : transport.Called left name other) {given others : List (Token × Value)}
    (same : List.Forall₂ (SameAt transport) given others) :
    transport.Pairs Eq (Exec.performCall evaluator name given fuel)
      (Exec.performCall partner other others fuel) := by
  intro first second related
  have near : transport.Near name.position other.position := .inr called.alike.position
  have found := (laws.agree related).lookup called
  rw [Exec.performCall, Exec.performCall, Exec.get_bind_eq, Exec.get_bind_eq, ← called.alike.word,
    ← same.length_eq, ← values_of_sameAt same]
  generalize known : first.functions.lookup? name.word = function at found ⊢
  generalize second.functions.lookup? name.word = twin at found ⊢
  cases found with
  | none => exact laws.refuse _ near related
  | @some function twin corresponds =>
      have declared : function ∈ first.functions := List.mem_of_find?_eq_some known
      have signature := laws.signature corresponds
      dsimp only
      rw [signature.parameters, show twin.arity = function.arity from
        congrArg List.length signature.parameters]
      by_cases fits : given.length ≠ function.arity
      · rw [if_pos fits, if_pos fits]
        exact laws.refuse _ near related
      · rw [if_neg fits, if_neg fits]
        apply bind_outcomes (laws.checkArguments name.word same function.parameters related)
        rintro _ _ middle between checked rfl ready
        obtain rfl : middle = first := (unchanged.checkArguments _ _).ok checked
        change transport.Outcomes Eq
          ((if Exec.maxCallDepth ≤ middle.frames.length then _ else _ : Exec Value) middle)
          ((if Exec.maxCallDepth ≤ between.frames.length then _ else _ : Exec Value) between)
        rw [(laws.agree ready).depth]
        by_cases deep : Exec.maxCallDepth ≤ middle.frames.length
        · rw [if_pos deep, if_pos deep]
          exact laws.refuse _ near ready
        · rw [if_neg deep, if_neg deep]
          exact evaluators.invoked corresponds near ready declared _ _

theorem call (evaluators : transport.Evaluators left evaluator partner) :
    transport.Pairs Eq (Exec.call left evaluator fuel) (Exec.call right partner fuel) := by
  have argument : transport.Pairs (SameAt transport)
      (do
        let token ← Exec.current left
        return (token, ← evaluator.expression))
      (do
        let token ← Exec.current right
        return (token, ← partner.expression)) := by
    apply laws.mark
    intro token twin near
    exact evaluators.expression.then fun value => .pure ⟨near, rfl⟩
  rw [Exec.call_eq, Exec.call_eq]
  apply laws.readCalled
  intro name twin called
  apply (laws.separated .rightParen (by decide) argument).bind
  intro given others same
  apply (laws.expectSymbol .rightParen).then
  intro _
  exact laws.performCall evaluators called same

end Laws

/-! ## The bodies of functions -/

/-- Outcomes in one part of a script are outcomes in every other part, if the machines that are reached
at the end are related there. -/
theorem Calls.ensuring {α : Type} {Part : Type} {parts : Part → Transport} (calls : Calls parts)
    {outer inner : Part} {tidy settle : Machine → Machine} {action partner : Exec α}
    {first second : Machine}
    (outcomes : (parts inner).Outcomes Eq (action first) (partner second))
    (restored : ∀ {within}, (parts inner).machines (Exec.finalOf (action first)) within →
      (parts outer).machines (tidy (Exec.finalOf (action first))) (settle within)) :
    (parts outer).Outcomes Eq (Exec.ensuring tidy action first)
      (Exec.ensuring settle partner second) := by
  unfold Exec.ensuring
  generalize action first = outcome at outcomes restored
  generalize partner second = twin at outcomes
  cases outcomes with
  | succeeded same related => exact .succeeded same (restored related)
  | failed corresponds related =>
      exact .failed (calls.failures inner outer ▸ corresponds) (restored related)
  | excused ends => exact .excused (calls.ends inner outer ▸ ends)

/-- The body of a function is executed alike in the part where it stands, and then the callers are put
back. -/
theorem Calls.invoke {Part : Type} {parts : Part → Transport} (calls : Calls parts)
    {left right : Script} (laws : ∀ part, (parts part).Laws left right)
    {evaluator partner : Evaluator} (control : evaluator.KeepsControl)
    (statements : ∀ part, (parts part).Pairs Eq evaluator.statement partner.statement) (part : Part)
    {function twin : Function} (corresponds : (parts part).functions function twin)
    {name other : Token} (near : (parts part).Near name.position other.position)
    {first second : Machine} (related : (parts part).machines first second)
    (declared : function ∈ first.functions) (arguments : List Value) (fuel : Nat) :
    (parts part).Outcomes Eq (Exec.invoke evaluator function arguments name fuel first)
      (Exec.invoke partner twin arguments other fuel second) := by
  obtain ⟨inner, leads⟩ := calls.leads corresponds related declared
  have bodies : (parts inner).Outcomes Eq
      (Exec.callBody evaluator.statement function.finish fuel
        (Exec.enterCall function arguments first))
      (Exec.callBody partner.statement twin.finish fuel
        (Exec.enterCall twin arguments second)) :=
    (laws inner).callBody (statements inner) leads.finish (leads.entered arguments)
  obtain ⟨added, kept⟩ := controlDiscipline.callBody control.statement
    function.finish fuel (Exec.enterCall function arguments first)
  have restored : (parts part).Outcomes Eq
      (Exec.ensuring (Exec.leaveCall first.cursor first.loopDepth)
        (Exec.callBody evaluator.statement function.finish fuel)
        (Exec.enterCall function arguments first))
      (Exec.ensuring (Exec.leaveCall second.cursor second.loopDepth)
        (Exec.callBody partner.statement twin.finish fuel)
        (Exec.enterCall twin arguments second)) :=
    calls.ensuring bodies fun ended => leads.returned arguments kept ended
  rw [Exec.invoke_eq, Exec.invoke_eq]
  apply bind_outcomes restored
  rintro ended _ middle between _ rfl inside
  exact (laws part).callResult ((laws part).signature corresponds) near ended inside

end Transport

end Onepass
