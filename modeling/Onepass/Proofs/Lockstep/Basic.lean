import Mathlib.Data.List.Forall2
import Onepass.Proofs.Control

/-! # Two executions in step

Two executions are followed side by side. As long as their machines are related, they read tokens of
the same kind and text, decide alike and change their machines alike, so they end alike. A coupling
says what is compared: which positions count as the same, which machines are related, and whether the
first execution may run out of fuel before the second does. Its laws ask of every single change of the
machine that it keeps related machines related; that whole executions do is proved from them, one
construct after the other.
-/

set_option autoImplicit false

namespace Onepass

/-! ## What is alike -/

/-- Tokens of one kind and text at positions that count as the same. -/
structure Token.Alike (positions : Position → Position → Prop) (left right : Token) : Prop where
  kind : left.kind = right.kind
  text : left.text = right.text
  position : positions left.position right.position

theorem Token.Alike.eq {left right : Token} (alike : Token.Alike Eq left right) : left = right := by
  obtain ⟨kind, text, position⟩ := alike
  cases left
  cases right
  congr

theorem Token.Alike.word {positions : Position → Position → Prop} {left right : Token}
    (alike : Token.Alike positions left right) : left.word = right.word := by
  unfold Token.word
  rw [alike.text]

theorem Token.Alike.shown {positions : Position → Position → Prop} {left right : Token}
    (alike : Token.Alike positions left right) : left.shown = right.shown := by
  unfold Token.shown
  rw [alike.word, alike.kind]

/-- Failures of one class and message at positions that count as the same. -/
inductive Failure.Alike (positions : Position → Position → Prop) : Failure → Failure → Prop
  | diagnostic {first second : Position} (cause : Cause) (near : positions first second) :
      Alike positions (.diagnostic ⟨cause, first⟩) (.diagnostic ⟨cause, second⟩)
  | progression (fault : Decimal.Fault) : Alike positions (.progression fault) (.progression fault)
  | limit (limit : Limit) : Alike positions (.limit limit) (.limit limit)
  | endless : Alike positions .endless .endless
  | exhausted : Alike positions .exhausted .exhausted

theorem Failure.Alike.refl (failure : Failure) : Failure.Alike Eq failure failure := by
  cases failure with
  | diagnostic diagnostic => exact .diagnostic diagnostic.cause rfl
  | progression fault => exact .progression fault
  | limit limit => exact .limit limit
  | endless => exact .endless
  | exhausted => exact .exhausted

theorem Failure.Alike.eq {failure twin : Failure} (alike : Failure.Alike Eq failure twin) :
    failure = twin := by
  cases alike with
  | diagnostic cause near => rw [near]
  | progression fault => rfl
  | limit limit => rfl
  | endless => rfl
  | exhausted => rfl

theorem Failure.Alike.anywhere {positions : Position → Position → Prop} {failure twin : Failure}
    (alike : Failure.Alike positions failure twin) :
    Failure.Alike (fun _ _ => True) failure twin := by
  cases alike with
  | diagnostic cause _ => exact .diagnostic cause trivial
  | progression fault => exact .progression fault
  | limit limit => exact .limit limit
  | endless => exact .endless
  | exhausted => exact .exhausted

theorem Failure.Alike.ofStep {positions : Position → Position → Prop} (refusal : Decimal.Refusal) :
    Failure.Alike positions (.ofStep refusal) (.ofStep refusal) := by
  cases refusal with
  | fault fault => exact .progression fault
  | tooLong => exact .limit .memory

/-- Two looks at a script that find the same, or fail alike. -/
inductive Diagnosed (positions : Position → Position → Prop) {α : Type} :
    Except Diagnostic α → Except Diagnostic α → Prop
  | found (result : α) : Diagnosed positions (.ok result) (.ok result)
  | refused {first second : Position} (cause : Cause) (near : positions first second) :
      Diagnosed positions (.error ⟨cause, first⟩) (.error ⟨cause, second⟩)

/-- Two scripts that an execution cannot tell apart but for positions. -/
structure Script.Alike (positions : Position → Position → Prop) (left right : Script) : Prop where
  token : ∀ place, Token.Alike positions (left.tokenAt place) (right.tokenAt place)
  type : ∀ place, Diagnosed positions (left.typeAt place) (right.typeAt place)
  parentheses : ∀ place, Diagnosed positions (left.parenthesesEnd place) (right.parenthesesEnd place)
  braces : ∀ place, Diagnosed positions (left.bracesEnd place) (right.bracesEnd place)
  body : ∀ running place,
    Diagnosed positions (left.bodyEnd running place) (right.bodyEnd running place)
  returns : ∀ running place, left.kindAt place = .keyword .returnWord →
    left.returnHasValue running (left.tokenAt place).position.line (place + 1) =
      right.returnHasValue running (right.tokenAt place).position.line (place + 1)

theorem Script.Alike.kind {positions : Position → Position → Prop} {left right : Script}
    (alike : Script.Alike positions left right) (place : Nat) :
    left.kindAt place = right.kindAt place :=
  (alike.token place).kind

theorem Diagnosed.refl {α : Type} (result : Except Diagnostic α) : Diagnosed Eq result result := by
  cases result with
  | ok value => exact .found value
  | error diagnostic => exact .refused diagnostic.cause rfl

theorem Script.Alike.refl (script : Script) : Script.Alike Eq script script where
  token _ := ⟨rfl, rfl, rfl⟩
  type _ := .refl _
  parentheses _ := .refl _
  braces _ := .refl _
  body _ _ := .refl _
  returns _ _ _ := rfl

/-- Somewhere in the script a declaration of the function can be read. -/
def Script.Declared (script : Script) (function : Function) : Prop :=
  ∃ fuel machine name final, Exec.declaredFunction script fuel machine = .ok (function, name) final

/-- Two machines agree on what names stand for. -/
structure Machine.SameNames (left right : Machine) : Prop where
  globals : left.scopes.globals = right.scopes.globals
  locals : left.scopes.locals = right.scopes.locals
  functions : left.functions = right.functions
  depth : left.frames.length = right.frames.length
  heap : left.heap = right.heap

theorem Machine.SameNames.lookup {left right : Machine} (same : left.SameNames right) (name : String) :
    left.scopes.lookup? name = right.scopes.lookup? name := by
  unfold Scopes.lookup? Scopes.visible
  rw [same.globals, same.locals]

/-- Two machines agree on everything by which an execution decides what to do next. What the callers
of the running function have put aside is not looked at, nor is what was written so far. -/
structure Machine.Agree (left right : Machine) : Prop extends Machine.SameNames left right where
  cursor : left.cursor = right.cursor
  caller : left.frames.head? = right.frames.head?
  loopDepth : left.loopDepth = right.loopDepth
  returned : left.returned = right.returned

namespace Machine.Agree

theorem refl (machine : Machine) : machine.Agree machine :=
  ⟨⟨rfl, rfl, rfl, rfl, rfl⟩, rfl, rfl, rfl, rfl⟩

variable {left right : Machine} (agree : left.Agree right)

include agree

theorem current : left.scopes.current = right.scopes.current := by
  unfold Scopes.current
  rw [agree.globals, agree.locals]

theorem running : left.running = right.running := by
  unfold Machine.running
  rw [agree.caller]

end Machine.Agree

/-! ## Couplings -/

/-- What two executions have in common. -/
structure Coupling where
  /-- The positions that count as the same. -/
  positions : Position → Position → Prop
  /-- The machines that are related. -/
  machines : Machine → Machine → Prop
  /-- Whether the first execution may run out of fuel before the second. -/
  lenient : Prop

namespace Coupling

variable {α β γ δ : Type}

/-- Both executions succeed with related results, or both fail alike, and their machines are related;
or the first one is out of fuel where that is allowed. -/
inductive Outcomes (coupling : Coupling) (results : α → β → Prop) :
    EStateM.Result Failure Machine α → EStateM.Result Failure Machine β → Prop
  | succeeded {result : α} {twin : β} {first second : Machine} (same : results result twin)
      (related : coupling.machines first second) :
      Outcomes coupling results (.ok result first) (.ok twin second)
  | failed {failure twin : Failure} {first second : Machine}
      (alike : Failure.Alike coupling.positions failure twin)
      (related : coupling.machines first second) :
      Outcomes coupling results (.error failure first) (.error twin second)
  | early {first : Machine} {outcome : EStateM.Result Failure Machine β} (allowed : coupling.lenient) :
      Outcomes coupling results (.error .exhausted first) outcome

/-- Two actions, started on related machines, end alike. -/
def Pairs (coupling : Coupling) (results : α → β → Prop) (action : Exec α) (partner : Exec β) : Prop :=
  ∀ ⦃first second : Machine⦄, coupling.machines first second →
    coupling.Outcomes results (action first) (partner second)

/-- The fuel of two executions: the same, or less for the first one where that is allowed. -/
inductive Rounds (coupling : Coupling) : Nat → Nat → Prop
  | spent {more : Nat} (none : more = 0 ∨ coupling.lenient) : Rounds coupling 0 more
  | another {fuel more : Nat} (rounds : Rounds coupling fuel more) :
      Rounds coupling (fuel + 1) (more + 1)

theorem Rounds.refl (coupling : Coupling) (fuel : Nat) : coupling.Rounds fuel fuel := by
  induction fuel with
  | zero => exact .spent (.inl rfl)
  | succ fuel ih => exact .another ih

theorem Rounds.of_le {coupling : Coupling} (allowed : coupling.lenient) {fuel more : Nat}
    (le : fuel ≤ more) : coupling.Rounds fuel more := by
  induction fuel generalizing more with
  | zero => exact .spent (.inr allowed)
  | succ fuel ih =>
      obtain ⟨rest, rfl⟩ : ∃ rest, more = rest + 1 := ⟨more - 1, by omega⟩
      exact .another (ih (by omega))

/-- The single steps of two executions keep related machines related. -/
structure Laws (coupling : Coupling) (left right : Script) : Prop where
  scripts : Script.Alike coupling.positions left right
  agree : ∀ {first second}, coupling.machines first second → first.Agree second
  moved : ∀ {first second}, coupling.machines first second → ∀ place,
    coupling.machines { first with cursor := place } { second with cursor := place }
  rescoped : ∀ {first second}, coupling.machines first second → ∀ globals locals,
    coupling.machines { first with scopes := { first.scopes with globals, locals } }
      { second with scopes := { second.scopes with globals, locals } }
  stored : ∀ {first second}, coupling.machines first second → ∀ heap,
    coupling.machines { first with heap } { second with heap }
  wrote : ∀ {first second}, coupling.machines first second → ∀ text,
    coupling.machines { first with output := first.output.push text }
      { second with output := second.output.push text }
  /-- Only functions whose declarations were read are registered, under names that are not taken. -/
  registered : ∀ {first second}, coupling.machines first second → ∀ {function functions},
    left.Declared function → first.functions.register? function = some functions →
      coupling.machines { first with functions } { second with functions }
  looped : ∀ {first second}, coupling.machines first second → ∀ loopDepth,
    coupling.machines { first with loopDepth } { second with loopDepth }
  gave : ∀ {first second}, coupling.machines first second → ∀ returned,
    coupling.machines { first with returned } { second with returned }
  entered : ∀ {first second}, coupling.machines first second →
    second.frames.length < Exec.maxCallDepth → ∀ function arguments,
      coupling.machines (Exec.enterCall function arguments first)
        (Exec.enterCall function arguments second)
  /-- The second execution keeps its control state during a call, and so the first one does. -/
  returned : ∀ {first second inside within}, coupling.machines first second →
    ∀ function arguments added,
      Machine.ControlKept added (Exec.enterCall function arguments second) within →
        coupling.machines inside within →
          coupling.machines (Exec.leaveCall first.cursor first.loopDepth inside)
            (Exec.leaveCall second.cursor second.loopDepth within)

/-- Two executions of one script from the same machine stay on the same machine, whatever is asked of
the positions in the script. -/
theorem Laws.of_eq {positions : Position → Position → Prop} {lenient : Prop} {script : Script}
    (scripts : Script.Alike positions script script) :
    Coupling.Laws ⟨positions, Eq, lenient⟩ script script where
  scripts := scripts
  agree := by
    rintro machine _ rfl
    exact .refl machine
  moved := by
    rintro machine _ rfl place
    rfl
  rescoped := by
    rintro machine _ rfl globals locals
    rfl
  stored := by
    rintro machine _ rfl heap
    rfl
  wrote := by
    rintro machine _ rfl text
    rfl
  registered := by
    rintro machine _ rfl function functions _ _
    rfl
  looped := by
    rintro machine _ rfl loopDepth
    rfl
  gave := by
    rintro machine _ rfl value
    rfl
  entered := by
    rintro machine _ rfl _ function arguments
    rfl
  returned := by
    rintro machine _ inside _ rfl _ _ _ _ rfl
    rfl

/-- On related machines names stand for the same, also after the heap was changed alike. -/
structure Stores (coupling : Coupling) : Prop where
  same : ∀ {first second}, coupling.machines first second → first.SameNames second
  stored : ∀ {first second}, coupling.machines first second → ∀ heap,
    coupling.machines { first with heap } { second with heap }

theorem Laws.stores {coupling : Coupling} {left right : Script} (laws : coupling.Laws left right) :
    coupling.Stores :=
  ⟨fun related => (laws.agree related).toSameNames, laws.stored⟩

/-- The same thing, found with tokens that are alike. -/
def Placed (coupling : Coupling) (found twin : Token × α) : Prop :=
  Token.Alike coupling.positions found.1 twin.1 ∧ found.2 = twin.2

/-- The same thing, found at positions that count as the same. -/
def SameAt (coupling : Coupling) (found twin : Token × α) : Prop :=
  coupling.positions found.1.position twin.1.position ∧ found.2 = twin.2

theorem Placed.sameAt {coupling : Coupling} {found twin : Token × α} (placed : coupling.Placed found twin) :
    coupling.SameAt found twin :=
  ⟨placed.1.position, placed.2⟩

theorem SameAt.values {coupling : Coupling} {found others : List (Token × α)}
    (same : List.Forall₂ coupling.SameAt found others) :
    found.map Prod.snd = others.map Prod.snd := by
  induction same with
  | nil => rfl
  | cons first _ ih => rw [List.map_cons, List.map_cons, first.2, ih]

/-- The parts of a construct end alike in both executions. -/
structure Evaluators (coupling : Coupling) (evaluator partner : Evaluator) : Prop where
  expression : coupling.Pairs Eq evaluator.expression partner.expression
  statement : coupling.Pairs Eq evaluator.statement partner.statement
  control : partner.KeepsControl

/-! ## Sequences -/

section

variable {coupling : Coupling} {results : α → β → Prop} {others : γ → δ → Prop}

theorem Outcomes.weaken {wider : α → β → Prop} {outcome : EStateM.Result Failure Machine α}
    {twin : EStateM.Result Failure Machine β} (same : coupling.Outcomes results outcome twin)
    (implied : ∀ {result twin}, results result twin → wider result twin) :
    coupling.Outcomes wider outcome twin := by
  cases same with
  | succeeded same related => exact .succeeded (implied same) related
  | failed alike related => exact .failed alike related
  | early allowed => exact .early allowed

/-- What the second part of a sequence does may depend on how the first one ended. -/
theorem bind_outcomes {action : Exec α} {partner : Exec β} {next : α → Exec γ} {following : β → Exec δ}
    {first second : Machine} (begun : coupling.Outcomes results (action first) (partner second))
    (rest : ∀ {result twin middle between}, action first = .ok result middle → results result twin →
      coupling.machines middle between →
        coupling.Outcomes others (next result middle) (following twin between)) :
    coupling.Outcomes others ((action >>= next) first) ((partner >>= following) second) := by
  change coupling.Outcomes others (EStateM.bind action next first)
    (EStateM.bind partner following second)
  unfold EStateM.bind
  cases ran : action first with
  | ok result middle =>
      cases other : partner second with
      | ok twin between =>
          rw [ran, other] at begun
          cases begun with
          | succeeded same related => exact rest ran same related
      | error failure between => rw [ran, other] at begun; cases begun
  | error failure middle =>
      cases other : partner second with
      | ok twin between =>
          rw [ran, other] at begun
          cases begun with
          | early allowed => exact .early allowed
      | error failure between =>
          rw [ran, other] at begun
          cases begun with
          | failed alike related => exact .failed alike related
          | early allowed => exact .early allowed

/-- Tidying up after two actions. The machines may be compared differently afterwards; what is known
about the machine that the second action leaves may be used. -/
theorem Outcomes.ensuring {tidied : Coupling} {tidy settle : Machine → Machine} {action : Exec α}
    {partner : Exec β} {first second : Machine}
    (outcomes : coupling.Outcomes results (action first) (partner second))
    (failures : ∀ {failure twin}, Failure.Alike coupling.positions failure twin →
      Failure.Alike tidied.positions failure twin)
    (allowed : coupling.lenient → tidied.lenient)
    (restored : ∀ {inside}, coupling.machines inside (Exec.finalOf (partner second)) →
      tidied.machines (tidy inside) (settle (Exec.finalOf (partner second)))) :
    tidied.Outcomes results (Exec.ensuring tidy action first) (Exec.ensuring settle partner second) := by
  unfold Exec.ensuring
  generalize action first = outcome at outcomes
  generalize partner second = twin at outcomes restored
  cases outcomes with
  | succeeded same related => exact .succeeded same (restored related)
  | failed alike related => exact .failed (failures alike) (restored related)
  | early possible => exact .early (allowed possible)

theorem Pairs.bind {action : Exec α} {partner : Exec β} {next : α → Exec γ} {following : β → Exec δ}
    (begun : coupling.Pairs results action partner)
    (rest : ∀ result twin, results result twin → coupling.Pairs others (next result) (following twin)) :
    coupling.Pairs others (action >>= next) (partner >>= following) := by
  intro first second related
  exact bind_outcomes (begun related) fun _ same between => rest _ _ same between

/-- Both actions give the same result, with which both go on. -/
theorem Pairs.then {action partner : Exec α} {next : α → Exec γ} {following : α → Exec δ}
    (begun : coupling.Pairs Eq action partner)
    (rest : ∀ result, coupling.Pairs others (next result) (following result)) :
    coupling.Pairs others (action >>= next) (partner >>= following) := by
  apply begun.bind
  rintro result _ rfl
  exact rest result

theorem Pairs.pure {result : α} {twin : β} (same : results result twin) :
    coupling.Pairs results (Pure.pure result : Exec α) (Pure.pure twin) :=
  fun _ _ related => .succeeded same related

theorem Pairs.same (result : α) : coupling.Pairs Eq (Pure.pure result : Exec α) (Pure.pure result) :=
  .pure rfl

theorem Pairs.throw {failure twin : Failure} (alike : Failure.Alike coupling.positions failure twin) :
    coupling.Pairs results (MonadExcept.throw failure : Exec α) (MonadExcept.throw twin : Exec β) :=
  fun _ _ related => .failed alike related

theorem Pairs.refuse {position twin : Position} (cause : Cause)
    (near : coupling.positions position twin) :
    coupling.Pairs results (Exec.refuse cause position : Exec α) (Exec.refuse cause twin : Exec β) :=
  .throw (.diagnostic cause near)

/-- After a refusal nothing else is done. -/
theorem Pairs.refuse_bind {position twin : Position} (cause : Cause)
    (near : coupling.positions position twin) {next : α → Exec γ} {following : β → Exec δ} :
    coupling.Pairs others (Exec.refuse cause position >>= next)
      (Exec.refuse cause twin >>= following) :=
  fun _ _ related => .failed (.diagnostic cause near) related

theorem Pairs.get : coupling.Pairs coupling.machines (MonadState.get : Exec Machine) MonadState.get :=
  fun _ _ related => .succeeded related related

/-- A repetition without fuel ends at once, and so does its partner or it need not. -/
theorem Pairs.spent (repeated : Nat → Exec β) {more : Nat} (none : more = 0 ∨ coupling.lenient)
    (stops : repeated 0 = MonadExcept.throw .exhausted) :
    coupling.Pairs results (MonadExcept.throw .exhausted : Exec α) (repeated more) := by
  rcases none with rfl | allowed
  · rw [stops]
    exact .throw .exhausted
  · intro first second _
    exact .early allowed

theorem Pairs.guarded (condition : Prop) [Decidable condition] {stop halt : Exec Unit}
    {next : Unit → Exec γ} {following : Unit → Exec δ} (stops : coupling.Pairs Eq stop halt)
    (rest : coupling.Pairs others (next ()) (following ())) :
    coupling.Pairs others (if condition then stop >>= next else next ())
      (if condition then halt >>= following else following ()) := by
  split
  · exact stops.then fun _ => rest
  · exact rest

theorem Pairs.ofDiagnosed {result twin : Except Diagnostic α}
    (same : Diagnosed coupling.positions result twin) :
    coupling.Pairs Eq (Exec.ofDiagnosed result) (Exec.ofDiagnosed twin) := by
  cases same with
  | found result => exact .same result
  | refused cause near => exact .throw (.diagnostic cause near)

theorem Pairs.located {position twin : Position} (near : coupling.positions position twin)
    (result : Except Fault α) :
    coupling.Pairs Eq (Exec.located position result) (Exec.located twin result) := by
  cases result with
  | ok value => exact .same value
  | error fault =>
      cases fault with
      | cause cause => exact .refuse cause near
      | number fault => exact .refuse _ near
      | limit limit => exact .throw (.limit limit)
      | endless => exact .throw .endless

end

end Coupling

end Onepass
