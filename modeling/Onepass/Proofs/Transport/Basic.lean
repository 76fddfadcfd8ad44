import Onepass.Proofs.Extent.Embedding

/-! # Executions carried over to another script

An execution of a script is compared with one of a script that it lies inside of. As long as their
machines are related, they read the same tokens at places that correspond, decide alike and change
their machines alike. Where the second script goes on behind an end of the first one, nothing is asked
of the second execution once the first one has failed at that end: what counts then is that it does not
notice the tokens that follow as long as the first one gets by without them.

The relation between the machines is a parameter, and so are the failures and the functions that
correspond. Its laws ask of every single change of the machine that it keeps related machines related,
so that a property of the machines of one execution can be carried along as well; that whole executions
do is proved from them, one construct after the other. Calls may lead from one part of the first script
to another one that lies elsewhere in the second script, so calls are compared for all parts at once.
-/

set_option autoImplicit false

namespace Onepass

/-- The functions can be told apart by their places only. -/
structure Function.SameSignature (function twin : Function) : Prop where
  name : twin.name = function.name
  parameters : twin.parameters = function.parameters
  returnType : twin.returnType = function.returnType

theorem Function.SameSignature.eq {function twin : Function} (same : function.SameSignature twin) :
    twin = { function with start := twin.start, finish := twin.finish } := by
  rw [← same.name, ← same.parameters, ← same.returnType]

/-- There is something that the evaluator can evaluate. Without fuel there is nothing. -/
def Evaluator.Evaluates (evaluator : Evaluator) : Prop :=
  ∃ machine value final, evaluator.expression machine = .ok value final

/-- How an execution is carried over to another script. -/
structure Transport extends Embedding where
  /-- The failures that correspond. -/
  failures : Failure → Failure → Prop
  /-- The functions that correspond. -/
  functions : Function → Function → Prop
  /-- The machines that are related. -/
  machines : Machine → Machine → Prop

namespace Transport

variable {α β γ δ : Type}

/-- Positions that count as the same, or need not because the first script ends there. -/
def Near (transport : Transport) (position twin : Position) : Prop :=
  transport.ends position ∨ transport.positions position twin

/-- The part of the script that is compared declares a function with a result somewhere. -/
def DeclaresResult (transport : Transport) (left : Script) : Prop :=
  ∃ place twin, transport.places place twin ∧ left.kindAt place = .symbol .rightParen ∧
    left.kindAt (place + 1) = .symbol .colon

/-- Tokens of the given kind that were read at the same place. -/
structure Read (transport : Transport) (left : Script) (kind : Kind) (token twin : Token) : Prop where
  alike : Token.Alike transport.positions token twin
  kind : token.kind = kind
  place : ∃ place there, transport.places place there ∧ left.tokenAt place = token

/-- Names of functions that were read at the same place: a parenthesis follows. -/
structure Called (transport : Transport) (left : Script) (name twin : Token) : Prop where
  alike : Token.Alike transport.positions name twin
  place : ∃ place there, transport.places place there ∧ left.tokenAt place = name ∧
    left.kindAt place = .identifier ∧ left.kindAt (place + 1) = .symbol .leftParen

/-- What two related machines agree on. The functions of the first one correspond to those of the second
one under every name that the first script calls or declares. -/
structure Agree (transport : Transport) (left : Script) (first second : Machine) : Prop where
  globals : second.scopes.globals = first.scopes.globals
  locals : second.scopes.locals = first.scopes.locals
  heap : second.heap = first.heap
  loopDepth : second.loopDepth = first.loopDepth
  returned : second.returned = first.returned
  cursor : transport.places first.cursor second.cursor
  running : transport.running first.running
  caller : Option.Rel Function.SameSignature first.frames.head? second.frames.head?
  depth : second.frames.length = first.frames.length
  lookup : ∀ {name twin}, transport.Called left name twin →
    Option.Rel transport.functions (first.functions.lookup? name.word)
      (second.functions.lookup? name.word)

namespace Agree

variable {transport : Transport} {left : Script} {first second : Machine}
variable (agree : transport.Agree left first second)

include agree

theorem current : second.scopes.current = first.scopes.current := by
  unfold Scopes.current
  rw [agree.globals, agree.locals]

theorem binding (name : String) : second.scopes.lookup? name = first.scopes.lookup? name := by
  unfold Scopes.lookup? Scopes.visible
  rw [agree.globals, agree.locals]

theorem sameRunning : second.running = first.running := by
  have callers := agree.caller
  unfold Machine.running
  generalize first.frames.head? = caller at callers ⊢
  generalize second.frames.head? = twin at callers ⊢
  cases callers with
  | none => rfl
  | some same => exact congrArg some same.returnType

end Agree

/-! ## Outcomes -/

/-- Both executions succeed with related results, or both fail with failures that correspond, and their
machines are related; or the first one fails at an end of its script behind which the second one goes
on. -/
inductive Outcomes (transport : Transport) (results : α → β → Prop) :
    EStateM.Result Failure Machine α → EStateM.Result Failure Machine β → Prop
  | succeeded {result : α} {twin : β} {first second : Machine} (same : results result twin)
      (related : transport.machines first second) :
      Outcomes transport results (.ok result first) (.ok twin second)
  | failed {failure twin : Failure} {first second : Machine}
      (corresponds : transport.failures failure twin)
      (related : transport.machines first second) :
      Outcomes transport results (.error failure first) (.error twin second)
  | excused {cause : Cause} {position : Position} {first : Machine}
      {outcome : EStateM.Result Failure Machine β} (ends : transport.ends position) :
      Outcomes transport results (.error (.diagnostic ⟨cause, position⟩) first) outcome

/-- Two actions, started on related machines, end alike. -/
def Pairs (transport : Transport) (results : α → β → Prop) (action : Exec α) (partner : Exec β) :
    Prop :=
  ∀ ⦃first second : Machine⦄, transport.machines first second →
    transport.Outcomes results (action first) (partner second)

/-- Two actions end alike if they are started on related machines where the first script has a token
of the given kind. -/
def PairsAt (transport : Transport) (left : Script) (kind : Kind) (results : α → β → Prop)
    (action : Exec α) (partner : Exec β) : Prop :=
  ∀ ⦃first second : Machine⦄, transport.machines first second → left.kindAt first.cursor = kind →
    transport.Outcomes results (action first) (partner second)

/-- At the end of its script the action is refused, with a diagnostic about that end. -/
def RefusedAtEnd (left : Script) (action : Exec α) : Prop :=
  ∀ ⦃machine : Machine⦄, left.kindAt machine.cursor = .endOfInput →
    ∃ cause final, action machine =
      .error (.diagnostic ⟨cause, (left.tokenAt machine.cursor).position⟩) final

/-- The parts of a construct and the calls inside it end alike in both executions; the first one keeps
its control state, and finds no statement at the end of its script, unless it cannot evaluate anything
at all. -/
structure Evaluators (transport : Transport) (left : Script) (evaluator partner : Evaluator) :
    Prop where
  expression : transport.Pairs Eq evaluator.expression partner.expression
  statement : transport.Pairs Eq evaluator.statement partner.statement
  invoked : ∀ {function twin}, transport.functions function twin → ∀ {name other : Token},
    transport.Near name.position other.position → ∀ {first second}, transport.machines first second →
      function ∈ first.functions → ∀ arguments fuel,
        transport.Outcomes Eq (Exec.invoke evaluator function arguments name fuel first)
          (Exec.invoke partner twin arguments other fuel second)
  control : evaluator.KeepsControl
  stops : evaluator.Evaluates → RefusedAtEnd left evaluator.statement

/-- The single steps of two executions keep related machines related. -/
structure Laws (transport : Transport) (left right : Script) : Prop where
  embeds : transport.Embeds left right
  diagnostic : ∀ {position twin} cause, transport.positions position twin →
    transport.failures (.diagnostic ⟨cause, position⟩) (.diagnostic ⟨cause, twin⟩)
  limit : ∀ limit, transport.failures (.limit limit) (.limit limit)
  endless : transport.failures .endless .endless
  exhausted : transport.failures .exhausted .exhausted
  agree : ∀ {first second}, transport.machines first second → transport.Agree left first second
  moved : ∀ {first second}, transport.machines first second → ∀ {place twin},
    transport.places place twin →
      transport.machines { first with cursor := place } { second with cursor := twin }
  stored : ∀ {first second}, transport.machines first second → ∀ heap,
    transport.machines { first with heap } { second with heap }
  wrote : ∀ {first second}, transport.machines first second → ∀ text,
    transport.machines { first with output := first.output.push text }
      { second with output := second.output.push text }
  looped : ∀ {first second}, transport.machines first second → ∀ loopDepth,
    transport.machines { first with loopDepth } { second with loopDepth }
  gave : ∀ {first second}, transport.machines first second → ∀ returned,
    transport.machines { first with returned } { second with returned }
  signature : ∀ {function twin}, transport.functions function twin → function.SameSignature twin
  /-- Functions that correspond were declared at the same place or both at different ones. -/
  starts : ∀ {function twin other partner}, transport.functions function twin →
    transport.functions other partner → (twin.start = partner.start ↔ function.start = other.start)
  /-- Functions declared in both scripts correspond if their bodies stand at the same place. -/
  corresponding : ∀ {function twin : Function}, function.SameSignature twin →
    transport.places function.start twin.start → transport.places function.finish twin.finish →
      left.kindAt function.start ≠ .endOfInput →
        function.returnType = .void ∨ transport.DeclaresResult left →
          transport.functions function twin
  registered : ∀ {first second}, transport.machines first second → ∀ {function twin},
    transport.functions function twin →
      transport.machines { first with functions := first.functions ++ [function] }
        { second with functions := second.functions ++ [twin] }
  declared : ∀ {first second}, transport.machines first second → ∀ name binding,
    transport.machines { first with scopes := (first.scopes.declare name binding).1 }
      { second with scopes := (second.scopes.declare name binding).1 }
  /-- Only what is not constant is assigned to. -/
  assigned : ∀ {first second}, transport.machines first second → ∀ name value,
    (∀ binding, first.scopes.lookup? name = some binding → binding.constant = false) →
      transport.machines { first with scopes := (first.scopes.assign name value).1 }
        { second with scopes := (second.scopes.assign name value).1 }
  opened : ∀ {first second}, transport.machines first second → ∀ scope,
    transport.machines { first with scopes := first.scopes.push scope }
      { second with scopes := second.scopes.push scope }
  /-- The first execution keeps its control state while the scope is open. -/
  closed : ∀ {first second inside within}, transport.machines first second → ∀ scope added,
    Machine.ControlKept added { first with scopes := first.scopes.push scope } inside →
      transport.machines inside within →
        transport.machines (Exec.closeScope inside) (Exec.closeScope within)

/-- Where a call leads from a part of the first script, and back. -/
structure Leads (outer inner : Transport) (function twin : Function) (first second : Machine) :
    Prop where
  finish : inner.places function.finish twin.finish
  entered : ∀ arguments, inner.machines (Exec.enterCall function arguments first)
    (Exec.enterCall twin arguments second)
  /-- The first execution keeps its control state during a call. -/
  returned : ∀ arguments {inside within added},
    Machine.ControlKept added (Exec.enterCall function arguments first) inside →
      inner.machines inside within →
        outer.machines (Exec.leaveCall first.cursor first.loopDepth inside)
          (Exec.leaveCall second.cursor second.loopDepth within)

/-- Parts of a script which every call leads back to. Failures mean the same in all of them. -/
structure Calls {Part : Type} (parts : Part → Transport) : Prop where
  failures : ∀ part other, (parts other).failures = (parts part).failures
  ends : ∀ part other, (parts other).ends = (parts part).ends
  leads : ∀ {part function twin first second}, (parts part).functions function twin →
    (parts part).machines first second → function ∈ first.functions →
      ∃ other, Leads (parts part) (parts other) function twin first second

/-! ## Sequences -/

section

variable {transport : Transport} {results : α → β → Prop} {others : γ → δ → Prop}

/-- What the second part of a sequence does may depend on how the first one ended. -/
theorem bind_outcomes {action : Exec α} {partner : Exec β} {next : α → Exec γ}
    {following : β → Exec δ} {first second : Machine}
    (begun : transport.Outcomes results (action first) (partner second))
    (rest : ∀ {result twin middle between}, action first = .ok result middle →
      results result twin → transport.machines middle between →
        transport.Outcomes others (next result middle) (following twin between)) :
    transport.Outcomes others ((action >>= next) first) ((partner >>= following) second) := by
  change transport.Outcomes others (EStateM.bind action next first)
    (EStateM.bind partner following second)
  unfold EStateM.bind
  cases ran : action first with
  | ok result middle =>
      rw [ran] at begun
      cases other : partner second with
      | ok twin between =>
          rw [other] at begun
          cases begun with
          | succeeded same related => exact rest ran same related
      | error failure between => rw [other] at begun; cases begun
  | error failure middle =>
      rw [ran] at begun
      cases other : partner second with
      | ok twin between =>
          rw [other] at begun
          cases begun with
          | excused ends => exact .excused ends
      | error failure between =>
          rw [other] at begun
          cases begun with
          | failed corresponds related => exact .failed corresponds related
          | excused ends => exact .excused ends

/-- Tidying up after two actions. What is known about the machine that the first action leaves may be
used. -/
theorem Outcomes.ensuring {tidy settle : Machine → Machine} {action : Exec α} {partner : Exec β}
    {first second : Machine}
    (outcomes : transport.Outcomes results (action first) (partner second))
    (restored : ∀ {within}, transport.machines (Exec.finalOf (action first)) within →
      transport.machines (tidy (Exec.finalOf (action first))) (settle within)) :
    transport.Outcomes results (Exec.ensuring tidy action first)
      (Exec.ensuring settle partner second) := by
  unfold Exec.ensuring
  generalize action first = outcome at outcomes restored
  generalize partner second = twin at outcomes
  cases outcomes with
  | succeeded same related => exact .succeeded same (restored related)
  | failed corresponds related => exact .failed corresponds (restored related)
  | excused ends => exact .excused ends

theorem Pairs.at {action : Exec α} {partner : Exec β} {left : Script} {kind : Kind}
    (pairs : transport.Pairs results action partner) :
    transport.PairsAt left kind results action partner :=
  fun _ _ related _ => pairs related

theorem PairsAt.bind {action : Exec α} {partner : Exec β} {next : α → Exec γ}
    {following : β → Exec δ} {left : Script} {kind : Kind}
    (begun : transport.PairsAt left kind results action partner)
    (rest : ∀ result twin, results result twin →
      transport.Pairs others (next result) (following twin)) :
    transport.PairsAt left kind others (action >>= next) (partner >>= following) := by
  intro first second related known
  exact bind_outcomes (begun related known) fun _ same between => rest _ _ same between

theorem Pairs.bind {action : Exec α} {partner : Exec β} {next : α → Exec γ} {following : β → Exec δ}
    (begun : transport.Pairs results action partner)
    (rest : ∀ result twin, results result twin →
      transport.Pairs others (next result) (following twin)) :
    transport.Pairs others (action >>= next) (partner >>= following) := by
  intro first second related
  exact bind_outcomes (begun related) fun _ same between => rest _ _ same between

/-- Both actions give the same result, with which both go on. -/
theorem Pairs.then {action partner : Exec α} {next : α → Exec γ} {following : α → Exec δ}
    (begun : transport.Pairs Eq action partner)
    (rest : ∀ result, transport.Pairs others (next result) (following result)) :
    transport.Pairs others (action >>= next) (partner >>= following) := by
  apply begun.bind
  rintro result _ rfl
  exact rest result

theorem Pairs.pure {result : α} {twin : β} (same : results result twin) :
    transport.Pairs results (Pure.pure result : Exec α) (Pure.pure twin) :=
  fun _ _ related => .succeeded same related

theorem Pairs.same (result : α) :
    transport.Pairs Eq (Pure.pure result : Exec α) (Pure.pure result) :=
  .pure rfl

theorem Pairs.throw {failure twin : Failure} (corresponds : transport.failures failure twin) :
    transport.Pairs results (MonadExcept.throw failure : Exec α) (MonadExcept.throw twin : Exec β) :=
  fun _ _ related => .failed corresponds related

theorem Pairs.get :
    transport.Pairs transport.machines (MonadState.get : Exec Machine) MonadState.get :=
  fun _ _ related => .succeeded related related

/-- Nothing is asked where the first action is refused and the second script goes on. -/
theorem RefusedAtEnd.excused {action : Exec α} {left : Script} (refused : RefusedAtEnd left action)
    {machine : Machine} {outcome : EStateM.Result Failure Machine β}
    (ended : left.kindAt machine.cursor = .endOfInput)
    (ends : transport.ends (left.tokenAt machine.cursor).position) :
    transport.Outcomes results (action machine) outcome := by
  obtain ⟨cause, final, failed⟩ := refused ended
  rw [failed]
  exact .excused ends

theorem PairsAt.failing {action : Exec α} {partner : Exec β} {left : Script} {kind : Kind}
    {position : Position} (ends : transport.ends position)
    (refused : ∀ machine, ∃ cause final,
      action machine = .error (.diagnostic ⟨cause, position⟩) final) :
    transport.PairsAt left kind results action partner := by
  intro first second _ _
  obtain ⟨cause, final, failed⟩ := refused first
  rw [failed]
  exact .excused ends

theorem Pairs.guarded (condition : Prop) [Decidable condition] {stop halt : Exec Unit}
    {next : Unit → Exec γ} {following : Unit → Exec δ} (stops : transport.Pairs Eq stop halt)
    (rest : transport.Pairs others (next ()) (following ())) :
    transport.Pairs others (if condition then stop >>= next else next ())
      (if condition then halt >>= following else following ()) := by
  split
  · exact stops.then fun _ => rest
  · exact rest

end

namespace Laws

variable {transport : Transport} {left right : Script} (laws : transport.Laws left right)
variable {results : α → β → Prop} {position twin : Position}

include laws

theorem refuse (cause : Cause) (near : transport.Near position twin) :
    transport.Pairs results (Exec.refuse cause position : Exec α) (Exec.refuse cause twin : Exec β) := by
  intro first second related
  cases near with
  | inl ends => exact .excused ends
  | inr near => exact .failed (laws.diagnostic cause near) related

/-- After a refusal nothing else is done. -/
theorem refuse_bind (cause : Cause) (near : transport.Near position twin) {next : γ → Exec α}
    {following : δ → Exec β} :
    transport.Pairs results (Exec.refuse cause position >>= next)
      (Exec.refuse cause twin >>= following) := by
  intro first second related
  cases near with
  | inl ends => exact .excused ends
  | inr near => exact .failed (laws.diagnostic cause near) related

theorem spent :
    transport.Pairs results (MonadExcept.throw .exhausted : Exec α)
      (MonadExcept.throw .exhausted : Exec β) :=
  .throw laws.exhausted

theorem ofDiagnosed {result : Except Diagnostic α} {other : Except Diagnostic β}
    (looks : transport.Looks results result other) :
    transport.Pairs results (Exec.ofDiagnosed result) (Exec.ofDiagnosed other) := by
  intro first second related
  cases looks with
  | found same => exact .succeeded same related
  | refused cause near => exact .failed (laws.diagnostic cause near) related
  | excused ends => exact .excused ends

theorem located (near : transport.Near position twin) (result : Except Fault α) :
    transport.Pairs Eq (Exec.located position result) (Exec.located twin result) := by
  cases result with
  | ok value => exact .same value
  | error fault =>
      cases fault with
      | cause cause => exact laws.refuse cause near
      | number fault => exact laws.refuse _ near
      | limit limit => exact .throw (laws.limit limit)
      | endless => exact .throw laws.endless

end Laws

end Transport

end Onepass
