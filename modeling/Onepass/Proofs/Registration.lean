import Onepass.Proofs.Extent.Simple
import Onepass.Proofs.Lockstep.Statement
import Onepass.Proofs.Watch

/-! # The table of functions

A declaration is executed wherever control reaches it, perhaps many times and inside other functions,
and the place of its body alone tells whether it is a second declaration of the same name. What is
declared stands in the script: the body between two braces that match, the name after the last `func`
before it. So a place says which function has its body there, and the table stays well formed however
it grows. It only grows at its end.
-/

set_option autoImplicit false

namespace Onepass

/-! ## Balanced brackets -/

namespace Bracket

/-- How many tokens open a bracket of the pair. -/
def openings (bracket : Bracket) (tokens : List Token) : Nat :=
  tokens.countP fun token => token.kind = bracket.opening

/-- How many tokens close a bracket of the pair. -/
def closings (bracket : Bracket) (tokens : List Token) : Nat :=
  tokens.countP fun token => token.kind = bracket.closing

/-- The tokens close so many brackets of the pair that were open before them, and what they open. -/
structure Closes (bracket : Bracket) (depth : Nat) (tokens : List Token) : Prop where
  /-- No beginning of them closes more. -/
  beginnings : ∀ length,
    bracket.closings (tokens.take length) ≤ depth + bracket.openings (tokens.take length)
  all : bracket.closings tokens = depth + bracket.openings tokens

/-- The tokens close the brackets of the pair that they open, and no beginning of them closes more
than it opens. -/
abbrev Balanced (bracket : Bracket) (tokens : List Token) : Prop :=
  bracket.Closes 0 tokens

variable {bracket : Bracket} {depth : Nat} {token : Token} {rest : List Token}

theorem balanced_nil : bracket.Balanced [] where
  beginnings length := by simp [closings]
  all := rfl

theorem openings_cons : bracket.openings (token :: rest) =
    bracket.openings rest + if token.kind = bracket.opening then 1 else 0 := by
  simp [openings, List.countP_cons]

theorem closings_cons : bracket.closings (token :: rest) =
    bracket.closings rest + if token.kind = bracket.closing then 1 else 0 := by
  simp [closings, List.countP_cons]

/-- A token that opens or closes a bracket changes how many are to be closed after it. -/
theorem Closes.cons {after : Nat} (closes : bracket.Closes after rest)
    (counted : depth + (if token.kind = bracket.opening then 1 else 0) =
      after + if token.kind = bracket.closing then 1 else 0) :
    bracket.Closes depth (token :: rest) where
  beginnings length := by
    cases length with
    | zero => simp [closings]
    | succ length =>
        have others := closes.beginnings length
        rw [List.take_succ_cons, openings_cons, closings_cons]
        omega
  all := by
    have others := closes.all
    rw [openings_cons, closings_cons]
    omega

end Bracket

namespace Script

/-- The tokens from one place on and before another. -/
def between (script : Script) (first last : Nat) : List Token :=
  (script.tokens.toList.take last).drop first

variable {script : Script}

theorem between_self (place : Nat) : script.between place place = [] := by
  simp [between]

theorem between_cons {first last : Nat} (before : first < last)
    (proper : script.kindAt first ≠ .endOfInput) :
    script.between first last = script.tokenAt first :: script.between (first + 1) last := by
  have inside : first < script.tokens.size := lt_size_of_kindAt proper
  have available : first < (script.tokens.toList.take last).length := by
    simp only [List.length_take, Array.length_toList]
    omega
  unfold between
  rw [List.drop_eq_getElem_cons available]
  congr 1
  simp [tokenAt, inside]

/-- Counting brackets ends behind the one that closes the last of them. -/
theorem closes_of_closingPlace {bracket : Bracket} {depth place last : Nat}
    (found : script.closingPlace bracket (depth + 1) place = .ok last) :
    ∃ finish, last = finish + 1 ∧ place ≤ finish ∧ script.kindAt finish = bracket.closing ∧
      bracket.Closes depth (script.between place finish) := by
  by_cases ended : script.kindAt place = .endOfInput
  · obtain ⟨diagnostic, failed⟩ := closingPlace_finished ended bracket depth
    rw [failed] at found
    cases found
  rw [closingPlace_succ ended] at found
  -- The recursion is that of the count; it stops only where the last open bracket is closed.
  generalize counted : (if script.kindAt place = bracket.opening then depth + 2
    else if script.kindAt place = bracket.closing then depth else depth + 1) = deeper at found
  cases deeper with
  | zero =>
      have closes : script.kindAt place = bracket.closing ∧ depth = 0 := by
        split at counted
        · omega
        · split at counted
          · exact ⟨by assumption, counted⟩
          · omega
      rw [closingPlace_zero] at found
      refine ⟨place, (Except.ok.inj found).symm, Nat.le_refl place, closes.1, ?_⟩
      rw [between_self, closes.2]
      exact Bracket.balanced_nil
  | succ after =>
      obtain ⟨finish, rfl, ordered, closing, inside⟩ := closes_of_closingPlace found
      refine ⟨finish, rfl, by omega, closing, ?_⟩
      rw [between_cons (by omega) ended]
      refine inside.cons ?_
      change depth + (if script.kindAt place = bracket.opening then 1 else 0) =
        after + if script.kindAt place = bracket.closing then 1 else 0
      split at counted
      case _ opens =>
        have unclosed : script.kindAt place ≠ bracket.closing := by simp [opens]
        rw [if_pos opens, if_neg unclosed]
        omega
      case _ unopened =>
        rw [if_neg unopened]
        split at counted
        case _ closes => rw [if_pos closes, counted]
        case _ unclosed => rw [if_neg unclosed]; omega
termination_by script.size - place
decreasing_by
  have := lt_size_of_kindAt ended
  omega

/-! ## Declarations -/

/-- No token of the kind stands from one place on and before another. -/
structure Lacks (script : Script) (kind : Kind) (first last : Nat) : Prop where
  ordered : first ≤ last
  absent : ∀ place, first ≤ place → place < last → script.kindAt place ≠ kind

namespace Lacks

variable {kind : Kind} {first middle last : Nat}

theorem refl (place : Nat) : script.Lacks kind place place :=
  ⟨Nat.le_refl place, fun _ after before => absurd before (Nat.not_lt.mpr after)⟩

theorem trans (start : script.Lacks kind first middle) (rest : script.Lacks kind middle last) :
    script.Lacks kind first last where
  ordered := Nat.le_trans start.ordered rest.ordered
  absent place after before := by
    by_cases early : place < middle
    · exact start.absent place after early
    · exact rest.absent place (Nat.not_lt.mp early) before

theorem token {place : Nat} (other : script.kindAt place ≠ kind) :
    script.Lacks kind place (place + 1) where
  ordered := Nat.le_succ place
  absent inner after before := by
    obtain rfl : inner = place := by omega
    exact other

end Lacks

/-- The function stands in the script: its name after the last `func` before its body, and the body
between two braces that match. -/
structure Declares (script : Script) (function : Function) : Prop where
  header : ∃ place, script.kindAt place = .keyword .funcWord ∧
    script.kindAt (place + 1) = .identifier ∧ (script.tokenAt (place + 1)).word = function.name ∧
    script.Lacks (.keyword .funcWord) (place + 1) function.start
  parameters : (function.parameters.map Parameter.name).Nodup
  opening : ∃ place, function.start = place + 1 ∧ script.kindAt place = .symbol .leftBrace
  closing : script.kindAt function.finish = .symbol .rightBrace
  ordered : function.start ≤ function.finish
  balanced : Bracket.curly.Balanced (function.body script.tokens.toList)

/-- The place of its body says which function is declared. -/
theorem Declares.name_eq {left right : Function} (declares : script.Declares left)
    (declared : script.Declares right) (same : left.start = right.start) : left.name = right.name := by
  obtain ⟨place, keyword, -, name, lacks⟩ := declares.header
  obtain ⟨twin, other, -, named, lacking⟩ := declared.header
  have before := lacks.ordered
  have behind := lacking.ordered
  -- Each of the two places is that of the last `func` before the body.
  obtain rfl : place = twin := by
    rcases Nat.lt_trichotomy place twin with earlier | rfl | later
    · exact absurd other (lacks.absent twin earlier (by omega))
    · rfl
    · exact absurd keyword (lacking.absent place later (by omega))
  exact name.symm.trans named

end Script

namespace Exec

variable {script : Script} {fuel : Nat} {machine final : Machine}

theorem optionalType_lacks :
    Moves (script.Lacks (.keyword .funcWord)) (parameters.optionalType script) := by
  intro machine final result ran
  obtain ⟨typed, middle, looked, rest⟩ := bind_ok ran
  rcases accept_ok (by simp) looked with ⟨rfl, colon, rfl⟩ | ⟨rfl, -, rfl⟩
  · obtain ⟨type, after, read, finished⟩ := bind_ok rest
    obtain ⟨known, rfl⟩ := readType_ok read
    obtain ⟨-, rfl⟩ := pure_ok finished
    have named := Script.typeAt_ok known
    refine (Script.Lacks.token (by simp [colon])).trans (.token fun other => ?_)
    rw [other] at named
    cases named
  · obtain ⟨-, rfl⟩ := pure_ok rest
    exact .refl _

/-- The parameters that were read have different names, and no other declaration begins among them. -/
theorem parameters_ok {function : String} {known result : List Parameter}
    (ran : parameters script function known fuel machine = .ok result final)
    (distinct : (known.map Parameter.name).Nodup) :
    (result.map Parameter.name).Nodup ∧
      script.Lacks (.keyword .funcWord) machine.cursor final.cursor := by
  induction fuel generalizing known machine with
  | zero => exact absurd ran throw_ne_ok
  | succ fuel ih =>
      have ran := currentKind_bind_ok ran
      split at ran
      · obtain ⟨rfl, rfl⟩ := pure_ok ran
        exact ⟨distinct, .refl _⟩
      · obtain ⟨named, ran⟩ := expect_bind_ok (by simp) ran
        obtain ⟨fresh, ran⟩ := guarded_ok ran
        obtain ⟨type, middle, read, ran⟩ := bind_ok ran
        have begun : script.Lacks (.keyword .funcWord) machine.cursor middle.cursor :=
          (Script.Lacks.token (by simp [named])).trans (optionalType_lacks read)
        let added : Parameter := ⟨(script.tokenAt machine.cursor).word, type⟩
        have extended : ((known ++ [added]).map Parameter.name).Nodup := by
          simpa [List.nodup_append, distinct] using fresh
        obtain ⟨more, after, looked, rest⟩ := bind_ok ran
        rcases accept_ok (by simp) looked with ⟨rfl, comma, rfl⟩ | ⟨rfl, -, rfl⟩
        · obtain ⟨names, others⟩ := ih rest extended
          exact ⟨names, begun.trans ((Script.Lacks.token (by simp [comma])).trans others)⟩
        · obtain ⟨rfl, rfl⟩ := pure_ok rest
          exact ⟨extended, begun⟩

/-- A function whose declaration was read stands in the script. -/
theorem declaredFunction_ok {function : Function} {name : Token}
    (ran : declaredFunction script fuel machine = .ok (function, name) final) :
    script.Declares function := by
  obtain ⟨begun, ran⟩ := expect_bind_ok (by simp) ran
  obtain ⟨named, ran⟩ := expect_bind_ok (by simp) ran
  obtain ⟨opened, ran⟩ := expectSymbol_bind_ok ran
  obtain ⟨signature, inside, listed, ran⟩ := bind_ok ran
  obtain ⟨distinct, lacks⟩ := parameters_ok listed List.nodup_nil
  obtain ⟨closed, ran⟩ := expectSymbol_bind_ok ran
  obtain ⟨type, brace, read, ran⟩ := bind_ok ran
  have ran := currentKind_bind_ok ran
  by_cases there : script.kindAt brace.cursor = .symbol .leftBrace
  · rw [if_neg (not_not_intro there)] at ran
    obtain ⟨_, after, passed, ran⟩ := bind_ok (get_bind_ok ran)
    have body : Script.Reaches (script.balancedEnd Bracket.curly.opening Bracket.curly.closing)
        brace.cursor after.cursor := (passOver_ok passed).1
    have ran := get_bind_ok ran
    cases ran
    obtain ⟨-, counted⟩ := Script.reaches_balancedEnd_iff.mp body
    obtain ⟨finish, behind, ordered, closing, balanced⟩ := Script.closes_of_closingPlace counted
    have place : final.cursor - 1 = finish := by omega
    have header : script.Lacks (.keyword .funcWord) (machine.cursor + 1) (brace.cursor + 1) :=
      (Script.Lacks.token (by simp [named]))
        |>.trans (.token (by simp [opened]))
        |>.trans lacks
        |>.trans (.token (by simp [closed]))
        |>.trans (optionalType_lacks read)
        |>.trans (.token (by simp [there]))
    rw [place]
    exact ⟨⟨machine.cursor, begun, named, rfl, header⟩, distinct, ⟨brace.cursor, rfl, there⟩, closing,
      ordered, balanced⟩
  · rw [if_pos there] at ran
    obtain ⟨_, _, refused, _⟩ := bind_ok ran
    exact absurd refused bind_refuse_ne_ok

end Exec

/-! ## Well-formed tables -/

/-- Functions are found by their names, their bodies begin at different places, and each of them stands
in the script. -/
structure FunctionTable.WellFormed (script : Script) (table : FunctionTable) : Prop where
  keys : ∀ {key function}, table.lookup? key = some function ↔ function ∈ table ∧ function.name = key
  starts : (table.map Function.start).Nodup
  declares : ∀ {function}, function ∈ table → script.Declares function

namespace FunctionTable

variable {script : Script} {table extended : FunctionTable} {function : Function}

theorem wellFormed_nil : WellFormed script [] where
  keys := by simp [lookup?]
  starts := List.nodup_nil
  declares := nofun

theorem register?_eq_some (registered : table.register? function = some extended) :
    table.lookup? function.name = none ∧ extended = table ++ [function] := by
  unfold register? at registered
  split at registered
  case _ => cases registered
  case _ absent => exact ⟨by simpa using absent, (Option.some.inj registered).symm⟩

theorem lookup?_append (table : FunctionTable) (function : Function) (key : String) :
    lookup? (table ++ [function]) key =
      (table.lookup? key).or (if function.name = key then some function else none) := by
  unfold lookup?
  rw [List.find?_append, List.find?_singleton]
  simp only [beq_iff_eq]

namespace WellFormed

variable (formed : table.WellFormed script)

include formed

theorem fresh (absent : table.lookup? function.name = none) {other : Function}
    (member : other ∈ table) : other.name ≠ function.name := by
  intro same
  rw [formed.keys.mpr ⟨member, same⟩] at absent
  cases absent

theorem keys_append (absent : table.lookup? function.name = none) {key : String} {other : Function} :
    lookup? (table ++ [function]) key = some other ↔ other ∈ table ++ [function] ∧ other.name = key := by
  rw [lookup?_append, List.mem_append, List.mem_singleton]
  cases known : table.lookup? key with
  | some found =>
      obtain ⟨member, named⟩ := formed.keys.mp known
      rw [Option.some_or, Option.some_inj]
      constructor
      · rintro rfl
        exact ⟨.inl member, named⟩
      · rintro ⟨older | rfl, same⟩
        · rw [formed.keys.mpr ⟨older, same⟩] at known
          exact (Option.some.inj known).symm
        · exact absurd (named.trans same.symm) (formed.fresh absent member)
  | none =>
      rw [Option.none_or]
      constructor
      · intro found
        split at found
        case _ named =>
          cases found
          exact ⟨.inr rfl, named⟩
        case _ => cases found
      · rintro ⟨older | rfl, same⟩
        · rw [formed.keys.mpr ⟨older, same⟩] at known
          cases known
        · rw [if_pos same]

/-- Two functions whose bodies begin at one place would have one name, and a name is taken once. -/
theorem starts_append (absent : table.lookup? function.name = none)
    (declares : script.Declares function) : ((table ++ [function]).map Function.start).Nodup := by
  rw [List.map_append, List.map_singleton, List.nodup_append]
  refine ⟨formed.starts, by simp, ?_⟩
  intro start member other single same
  obtain ⟨older, known, rfl⟩ := List.mem_map.mp member
  rw [List.mem_singleton] at single
  exact formed.fresh absent known ((formed.declares known).name_eq declares (same.trans single))

theorem register (declares : script.Declares function)
    (registered : table.register? function = some extended) : extended.WellFormed script := by
  obtain ⟨absent, rfl⟩ := register?_eq_some registered
  refine ⟨formed.keys_append absent, formed.starts_append absent declares, ?_⟩
  intro other member
  rcases List.mem_append.mp member with older | added
  · exact formed.declares older
  · rw [List.mem_singleton.mp added]
    exact declares

end WellFormed

end FunctionTable

/-! ## Executions -/

/-- Two executions of one script on the same machines, whose table of functions has a property. -/
def Coupling.tables (holds : FunctionTable → Prop) : Coupling where
  positions := Eq
  machines first second := second = first ∧ holds first.functions
  lenient := False

namespace Coupling

variable {script : Script} {holds : FunctionTable → Prop}

theorem tables_laws (registers : ∀ {table function extended}, holds table → script.Declares function →
      FunctionTable.register? table function = some extended → holds extended) :
    (tables holds).Laws script script where
  scripts := .refl script
  agree := by
    rintro machine _ ⟨rfl, _⟩
    exact .refl _
  moved := by
    rintro machine _ ⟨rfl, kept⟩ place
    exact ⟨rfl, kept⟩
  rescoped := by
    rintro machine _ ⟨rfl, kept⟩ globals locals
    exact ⟨rfl, kept⟩
  stored := by
    rintro machine _ ⟨rfl, kept⟩ heap
    exact ⟨rfl, kept⟩
  wrote := by
    rintro machine _ ⟨rfl, kept⟩ text
    exact ⟨rfl, kept⟩
  registered := by
    rintro machine _ ⟨rfl, kept⟩ function functions ⟨_, _, _, _, read⟩ registered
    exact ⟨rfl, registers kept (Exec.declaredFunction_ok read) registered⟩
  looped := by
    rintro machine _ ⟨rfl, kept⟩ loopDepth
    exact ⟨rfl, kept⟩
  gave := by
    rintro machine _ ⟨rfl, kept⟩ value
    exact ⟨rfl, kept⟩
  entered := by
    rintro machine _ ⟨rfl, kept⟩ _ function arguments
    exact ⟨rfl, kept⟩
  returned := by
    rintro machine _ inside _ ⟨rfl, _⟩ _ _ _ _ ⟨rfl, kept⟩
    exact ⟨rfl, kept⟩

/-- A property that every registration keeps holds for every statement that is come to. -/
theorem tables_watched (laws : (tables holds).Laws script script) (verbosity : Nat)
    (instead : Exec Signal) (fuel : Nat) :
    (tables holds).Evaluators
      (Exec.watched script verbosity (fun _ _ machine => holds machine.functions) instead fuel)
      (Exec.evaluator script verbosity fuel) := by
  have control (fuel : Nat) : (Exec.evaluator script verbosity fuel).KeepsControl :=
    controlDiscipline.evaluates script verbosity fuel
  induction fuel with
  | zero => exact ⟨.throw .exhausted, .throw .exhausted, control 0⟩
  | succ fuel ih =>
      refine ⟨laws.disjunction ih (laws.call ih (.refl _ fuel)) (.refl _ fuel), ?_, control _⟩
      rintro machine _ ⟨rfl, kept⟩
      rw [Exec.watched_statement_of_holds script verbosity kept]
      refine laws.dispatch ih (.refl _ fuel) ?_ ⟨rfl, kept⟩
      rintro first _ ⟨rfl, kept⟩
      exact ⟨rfl, kept⟩

theorem Outcomes.of_tables {α : Type} {outcome twin : EStateM.Result Failure Machine α}
    (outcomes : (tables holds).Outcomes Eq outcome twin) :
    outcome = twin ∧ holds (Exec.finalOf twin).functions := by
  cases outcomes with
  | succeeded same related =>
      obtain ⟨rfl, kept⟩ := related
      exact ⟨by rw [same], kept⟩
  | failed alike related =>
      obtain ⟨rfl, kept⟩ := related
      exact ⟨by rw [alike.eq], kept⟩
  | early allowed => exact allowed.elim

end Coupling

namespace Exec

variable (script : Script) (verbosity fuel : Nat)

/-- Performed on a machine, an action comes to statements only with tables of functions that have a
property, at any depth of calls, and ends with such a table, whether it succeeds or fails. -/
def KeepsFunctions (holds : FunctionTable → Prop) {α : Type} (action : Evaluator → Exec α)
    (first : Machine) : Prop :=
  (∀ instead, action (watched script verbosity (fun _ _ machine => holds machine.functions) instead
      fuel) first = action (evaluator script verbosity fuel) first) ∧
  holds (finalOf (action (evaluator script verbosity fuel) first)).functions

variable {script verbosity fuel}

theorem keepsFunctions_of_pairs {holds : FunctionTable → Prop} {α : Type}
    {action : Evaluator → Exec α} {first : Machine} (laws : (Coupling.tables holds).Laws script script)
    (start : holds first.functions)
    (pairs : ∀ {watched : Evaluator},
      (Coupling.tables holds).Evaluators watched (evaluator script verbosity fuel) →
        (Coupling.tables holds).Pairs Eq (action watched)
          (action (evaluator script verbosity fuel))) :
    KeepsFunctions script verbosity fuel holds action first := by
  have beside (instead : Exec Signal) :=
    (pairs (Coupling.tables_watched laws verbosity instead fuel) ⟨rfl, start⟩).of_tables
  exact ⟨fun instead => (beside instead).1, (beside (throw .exhausted)).2⟩

/-- The table of functions is well formed and only grows at its end. In every run it is well formed for
every statement that is come to, and when the run ends, in whatever way. Whatever part of a program is
executed on a machine, an expression, a statement, the rest of a block, of the body of a call or of the
program, the functions of that machine stay where they are: the later ones come behind them. -/
theorem functions_well_formed_and_kept (script : Script) (verbosity fuel : Nat) :
    KeepsFunctions script verbosity fuel (·.WellFormed script)
      (fun evaluator => program script evaluator fuel) .initial ∧
    ∀ (first : Machine) (rounds finish : Nat),
      let kept : FunctionTable → Prop := fun table =>
        first.functions <+: table ∧ (first.functions.WellFormed script → table.WellFormed script)
      KeepsFunctions script verbosity fuel kept (·.expression) first ∧
      KeepsFunctions script verbosity fuel kept (·.statement) first ∧
      KeepsFunctions script verbosity fuel kept
        (fun evaluator => block script evaluator.statement rounds) first ∧
      KeepsFunctions script verbosity fuel kept
        (fun evaluator => statementsUntil evaluator.statement finish rounds) first ∧
      KeepsFunctions script verbosity fuel kept
        (fun evaluator => program script evaluator rounds) first := by
  constructor
  · have laws : (Coupling.tables (·.WellFormed script)).Laws script script :=
      Coupling.tables_laws fun formed => formed.register
    exact keepsFunctions_of_pairs laws FunctionTable.wellFormed_nil fun evaluators =>
      laws.program evaluators (.refl _ fuel)
  · intro first rounds finish kept
    have laws : (Coupling.tables kept).Laws script script := by
      apply Coupling.tables_laws
      rintro table function extended ⟨older, formed⟩ declares registered
      obtain ⟨-, rfl⟩ := FunctionTable.register?_eq_some registered
      exact ⟨older.trans (List.prefix_append _ _), fun start =>
        (formed start).register declares registered⟩
    have start : kept first.functions := ⟨List.prefix_rfl, id⟩
    exact ⟨keepsFunctions_of_pairs laws start (·.expression),
      keepsFunctions_of_pairs laws start (·.statement),
      keepsFunctions_of_pairs laws start fun evaluators =>
        laws.block evaluators.statement (.refl _ rounds),
      keepsFunctions_of_pairs laws start fun evaluators =>
        laws.statementsUntil evaluators.statement finish (.refl _ rounds),
      keepsFunctions_of_pairs laws start fun evaluators =>
        laws.program evaluators (.refl _ rounds)⟩

end Exec

end Onepass
