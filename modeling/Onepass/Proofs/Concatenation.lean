import Onepass.Execution.Run
import Onepass.Proofs.Signals
import Onepass.Proofs.Transport.Relocation

/-! # One script after another

A script that goes on behind the end of another one does not change what the first one does: what was
executed when its end is reached is the same. The rest is executed from there as the second script is
by itself, if the functions of the first one are handed to it with the tokens that their bodies stand
among.

The beginning of the second script is seen at two points. A `return` at the very end decides by its own
line in functions that give nothing, but one that is passed over while a function with a result is
running takes an expression on a later line for its value. And a function of the first script that is
called by the second one may look behind the end of its own script, where it is refused if nothing
follows.
-/

set_option autoImplicit false

namespace Onepass

namespace Script

/-- The tokens of one script followed by those of another one. -/
def append (earlier later : Script) : Script :=
  ⟨earlier.tokens ++ later.tokens, later.finish⟩

/-- A script with the tokens of another one behind its end, whose own end has the given position: a
function whose body stands there can be called. -/
def supplied (script : Script) (tokens : Array Token) (mark : Position) : Script :=
  ⟨script.tokens.push script.finishToken ++ tokens, mark⟩

/-- Where the second script, supplied with the tokens of the first one, stands if it follows it: its own
places are moved by the length of the first script, and the places of the first script are back. -/
def placeInBoth (earlier later : Script) (place : Nat) : Nat :=
  if place ≤ later.size then earlier.size + place else place - (later.size + 1)

/-- The first script has no mark of the end among its tokens, and the second one begins with a
statement on a line below it. -/
structure Precedes (earlier later : Script) : Prop where
  proper : ∀ token ∈ earlier.tokens, token.kind ≠ .endOfInput
  starts : later.kindAt 0 ∈ Kind.statementStarts
  below : ∀ token ∈ earlier.tokens.back?, token.position.line < (later.tokenAt 0).position.line

/-- Whether the script declares a function with a result somewhere. -/
def declaresResult (script : Script) : Prop :=
  ∃ place, script.kindAt place = .symbol .rightParen ∧ script.kindAt (place + 1) = .symbol .colon

/-- The first script ends with a `return` and declares a function with a result, and the second one
begins with what can be an expression. -/
def ReturnsInto (earlier later : Script) : Prop :=
  earlier.kindAt (earlier.size - 1) = .keyword .returnWord ∧ earlier.declaresResult ∧
    (later.kindAt 0).startsExpression = true

/-- The script calls and declares none of the functions. -/
def Avoids (script : Script) (known : FunctionTable) : Prop :=
  ∀ place, script.kindAt place = .identifier → script.kindAt (place + 1) = .symbol .leftParen →
    known.lookup? (script.tokenAt place).word = none

variable {earlier later : Script}

theorem tokenAt_append_left {place : Nat} (before : place < earlier.size) :
    (earlier.append later).tokenAt place = earlier.tokenAt place := by
  have inside : place < earlier.tokens.size := before
  simp [tokenAt, append, Array.getElem?_append, inside]

theorem tokenAt_append_right (earlier later : Script) (place : Nat) :
    (earlier.append later).tokenAt (earlier.size + place) = later.tokenAt place := by
  have behind : ¬ earlier.size + place < earlier.tokens.size := Nat.not_lt.2 (Nat.le_add_right _ _)
  unfold tokenAt append
  rw [Array.getElem?_append, if_neg behind, ← size, Nat.add_sub_cancel_left]
  rfl

theorem tokenAt_size (script : Script) : script.tokenAt script.size = script.finishToken := by
  simp [tokenAt, size]

theorem tokenAt_supplied_left {script : Script} {place : Nat} (own : place ≤ script.size)
    (tokens : Array Token) (mark : Position) :
    (script.supplied tokens mark).tokenAt place = script.tokenAt place := by
  rcases Nat.lt_or_eq_of_le own with before | rfl
  · have before : place < script.tokens.size := before
    simp [tokenAt, supplied, Array.getElem?_append, Nat.lt_succ_of_lt before,
      Array.getElem_push_lt before, before]
  · rw [tokenAt_size]
    simp [tokenAt, supplied, Array.getElem?_append, size]

theorem tokenAt_supplied_right (script : Script) (tokens : Array Token) (mark : Position)
    (place : Nat) :
    (script.supplied tokens mark).tokenAt (script.size + 1 + place) =
      (Script.mk tokens mark).tokenAt place := by
  have behind : ¬ script.size + 1 + place < script.tokens.size + 1 :=
    Nat.not_lt.2 (Nat.le_add_right _ _)
  unfold tokenAt supplied
  rw [Array.getElem?_append, Array.size_push, if_neg behind, ← size, Nat.add_sub_cancel_left]
  rfl

/-- Where its end is marked does not change the tokens of a script. -/
theorem tokenAt_mk {script : Script} {place : Nat} (before : place < script.size) (mark : Position) :
    (Script.mk script.tokens mark).tokenAt place = script.tokenAt place := by
  have inside : place < script.tokens.size := before
  simp [tokenAt, inside]

theorem kindAt_mk (script : Script) (mark : Position) (place : Nat) :
    (Script.mk script.tokens mark).kindAt place = script.kindAt place := by
  unfold kindAt tokenAt
  cases script.tokens[place]? <;> rfl

@[simp] theorem placeInBoth_own {place : Nat} (own : place ≤ later.size) :
    earlier.placeInBoth later place = earlier.size + place :=
  if_pos own

@[simp] theorem placeInBoth_supplied (earlier later : Script) (place : Nat) :
    earlier.placeInBoth later (later.size + 1 + place) = place := by
  unfold placeInBoth
  rw [if_neg (by omega)]
  omega

/-! ## The parts of the two scripts -/

/-- The tokens of the first script at its own places, found in another one from some place on. Its end
is marked there. What is running returns nothing, or the script declares a function with a result. -/
def beginning (earlier : Script) (start : Nat) (mark : Position) : Embedding where
  positions := Eq
  places place twin := place = start + twin ∧ twin ≤ earlier.size
  ends position := position = mark
  running type := ∀ result, type = some result → result = .void ∨ earlier.declaresResult

/-- The tokens of the second script behind those of the first one. -/
def ending (earlier later : Script) (ends : Position → Prop) : Embedding where
  positions := Eq
  places place twin := twin = earlier.size + place ∧ place ≤ later.size
  ends := ends
  running _ := True

namespace Precedes

variable (precedes : earlier.Precedes later)

include precedes

theorem kindAt_ne {place : Nat} (before : place < earlier.size) :
    earlier.kindAt place ≠ .endOfInput := by
  have inside : place < earlier.tokens.size := before
  have here : earlier.tokenAt place = earlier.tokens[place] := by simp [tokenAt, inside]
  rw [kindAt, here]
  exact precedes.proper _ (Array.getElem_mem inside)

/-- A `return` that is the last token sees nothing behind it. -/
theorem returnHasValue_last (apart : ¬ earlier.ReturnsInto later) {place : Nat}
    {start : Nat} {mark : Position} {running : Option DeclaredType}
    (allowed : (earlier.beginning start mark).running running)
    (returns : earlier.kindAt place = .keyword .returnWord) (last : place + 1 = earlier.size) :
    (earlier.append later).returnHasValue running (earlier.tokenAt place).position.line
      (place + 1) = false := by
  have inside : place < earlier.tokens.size := by
    have same : earlier.tokens.size = earlier.size := rfl
    omega
  have ends : earlier.size - 1 = place := by omega
  have here : earlier.tokenAt place = earlier.tokens[place] := by simp [tokenAt, inside]
  have below : (earlier.tokenAt place).position.line < (later.tokenAt 0).position.line := by
    apply precedes.below
    rw [here, Array.back?, ← size, ends]
    simp [inside]
  have next : (earlier.append later).tokenAt (place + 1) = later.tokenAt 0 := by
    rw [last, ← tokenAt_append_right earlier later 0, Nat.add_zero]
  unfold returnHasValue
  simp only [next, beq_false_of_ne (Nat.ne_of_gt below), Bool.false_or]
  by_cases starts : (later.kindAt 0).startsExpression = true
  · have none : ¬ earlier.declaresResult := fun declares =>
      apart ⟨by rw [ends]; exact returns, declares, starts⟩
    cases running with
    | none => simp
    | some result =>
        obtain rfl := (allowed result rfl).resolve_right none
        simp
  · have other : (later.tokenAt 0).kind.startsExpression = false := by simpa [kindAt] using starts
    simp [other]

/-- A script that the tokens of the first one are found in cannot tell whether the second one
follows. -/
theorem embeds_beginning (apart : ¬ earlier.ReturnsInto later) {left : Script} {start : Nat}
    {mark : Position} (before : ∀ {place}, place < earlier.size →
      left.tokenAt (start + place) = earlier.tokenAt place)
    (ended : left.tokenAt (start + earlier.size) = ⟨.endOfInput, none, mark⟩) :
    (earlier.beginning start mark).Embeds left (earlier.append later) where
  token := by
    rintro _ place ⟨rfl, inside⟩
    rcases Nat.lt_or_eq_of_le inside with more | rfl
    · rw [before more, tokenAt_append_left more]
      exact .alike ⟨rfl, rfl, rfl⟩
    · rw [ended, ← Nat.add_zero earlier.size, tokenAt_append_right]
      exact .beyond rfl rfl precedes.starts
  next := by
    rintro _ place ⟨rfl, inside⟩ proper
    refine ⟨rfl, Nat.lt_of_le_of_ne inside ?_⟩
    rintro rfl
    exact proper (by rw [kindAt, ended])
  previous := by
    rintro _ place _ further ⟨rfl, _⟩ ⟨rfl, inside⟩ more
    exact ⟨by omega, by omega⟩
  ordered := by
    rintro _ place _ other ⟨rfl, _⟩ ⟨rfl, _⟩
    omega
  returns := by
    rintro _ place running ⟨rfl, inside⟩ allowed returns
    have more : place < earlier.size := by
      refine Nat.lt_of_le_of_ne inside ?_
      rintro rfl
      rw [kindAt, ended] at returns
      cases returns
    rw [before more, tokenAt_append_left more]
    rcases Nat.lt_or_eq_of_le (Nat.succ_le_of_lt more) with next | last
    · unfold returnHasValue
      rw [tokenAt_append_left next, Nat.add_assoc, before next]
    · have returns : earlier.kindAt place = .keyword .returnWord := by
        rwa [kindAt, before more] at returns
      have last : place + 1 = earlier.size := last
      rw [precedes.returnHasValue_last apart allowed returns last]
      unfold returnHasValue
      rw [Nat.add_assoc, last, ended]
      rfl

end Precedes

theorem embeds_ending {left : Script} (own : ∀ {place}, place ≤ later.size →
    left.tokenAt place = later.tokenAt place) (ends : Position → Prop) :
    (earlier.ending later ends).Embeds left (earlier.append later) where
  token := by
    rintro place _ ⟨rfl, inside⟩
    rw [own inside, tokenAt_append_right]
    exact .alike ⟨rfl, rfl, rfl⟩
  next := by
    rintro place _ ⟨rfl, inside⟩ proper
    refine ⟨rfl, Nat.lt_of_le_of_ne inside ?_⟩
    rintro rfl
    exact proper (by rw [kindAt, own inside, tokenAt_size]; rfl)
  previous := by
    rintro place _ further _ ⟨rfl, _⟩ ⟨rfl, inside⟩ more
    exact ⟨by omega, by omega⟩
  ordered := by
    rintro place _ other _ ⟨rfl, _⟩ ⟨rfl, _⟩
    omega
  returns := by
    rintro place _ running ⟨rfl, inside⟩ _ returns
    have more : place + 1 ≤ later.size := by
      refine Nat.lt_of_le_of_ne inside ?_
      rintro rfl
      rw [kindAt, own inside, tokenAt_size] at returns
      cases returns
    unfold returnHasValue
    rw [Nat.add_assoc, tokenAt_append_right, tokenAt_append_right, own inside, own more]

/-! ## Relocations -/

/-- The first script where it stands at the beginning of both. -/
def alone (earlier : Script) : Relocation Unit where
  parts _ := earlier.beginning 0 earlier.finish
  move := id
  unused := []

/-- The parts of the second script that is supplied with the tokens of the first one. -/
inductive SuppliedPart
  | own
  | supplied

/-- The second script, supplied with the tokens of the first one, where both follow each other. -/
def joined (earlier later : Script) (mark : Position) : Relocation SuppliedPart where
  parts
    | .own => earlier.ending later (· = mark)
    | .supplied => earlier.beginning (later.size + 1) mark
  move := earlier.placeInBoth later
  unused := []

/-- The second script alone where it follows the first one, without some functions. -/
def behind (earlier later : Script) (unused : FunctionTable) : Relocation Unit where
  parts _ := earlier.ending later fun _ => False
  move := earlier.placeInBoth later
  unused := unused

theorem Precedes.relocates_alone (precedes : earlier.Precedes later)
    (apart : ¬ earlier.ReturnsInto later) :
    earlier.alone.Relocates earlier (earlier.append later) where
  embeds _ := precedes.embeds_beginning apart (fun _ => congrArg _ (Nat.zero_add _))
    (by rw [Nat.zero_add, tokenAt_size]; rfl)
  positions _ := rfl
  ends _ _ := rfl
  moves := by
    rintro _ _ place ⟨rfl, _⟩
    exact (Nat.zero_add place).symm
  apart := by
    rintro _ _ _ place _ ⟨rfl, _⟩ ⟨rfl, _⟩ _ _
    rfl
  results := by
    rintro _ _ place ⟨rfl, _⟩ closing colon type result same
    rw [Nat.zero_add] at closing colon
    exact .inr ⟨place, closing, colon⟩
  nothing := by
    rintro _ result ⟨⟩
    exact .inl rfl
  avoids _ _ _ := rfl

theorem relocates_behind (tokens : Array Token) (mark : Position) {unused : FunctionTable}
    (avoids : later.Avoids unused) :
    (earlier.behind later unused).Relocates (later.supplied tokens mark)
      (earlier.append later) where
  embeds _ := embeds_ending (fun own => tokenAt_supplied_left own tokens mark) _
  positions _ := rfl
  ends _ _ := rfl
  moves := by
    rintro _ place _ ⟨rfl, own⟩
    exact (placeInBoth_own own).symm
  apart := by
    rintro _ _ place _ further ⟨rfl, _⟩ ⟨same, _⟩ _ _
    omega
  results _ _ _ _ := trivial
  nothing _ := trivial
  avoids := by
    rintro _ place _ ⟨rfl, own⟩ identifier parenthesis
    have more : place + 1 ≤ later.size := by
      refine Nat.lt_of_le_of_ne own ?_
      rintro rfl
      rw [kindAt, tokenAt_supplied_left own, tokenAt_size] at identifier
      cases identifier
    rw [kindAt, tokenAt_supplied_left own] at identifier
    rw [kindAt, tokenAt_supplied_left more] at parenthesis
    rw [tokenAt_supplied_left own]
    exact avoids place identifier parenthesis

theorem Precedes.relocates_joined (precedes : earlier.Precedes later)
    (apart : ¬ earlier.ReturnsInto later) (mark : Position) :
    (earlier.joined later mark).Relocates (later.supplied earlier.tokens mark)
      (earlier.append later) where
  embeds
    | .own => embeds_ending (fun own => tokenAt_supplied_left own earlier.tokens mark) _
    | .supplied =>
      precedes.embeds_beginning apart
        (fun before => (tokenAt_supplied_right _ _ _ _).trans (tokenAt_mk before mark))
        ((tokenAt_supplied_right _ _ _ _).trans (tokenAt_size (Script.mk earlier.tokens mark)))
  positions
    | .own => rfl
    | .supplied => rfl
  ends := by
    rintro (_ | _) (_ | _) <;> rfl
  moves := by
    rintro (_ | _)
    · rintro place _ ⟨rfl, own⟩
      exact (placeInBoth_own own).symm
    · rintro _ place ⟨rfl, _⟩
      exact (placeInBoth_supplied earlier later place).symm
  apart := by
    -- Only the end of the first script stands where the second one begins.
    have ended : (later.supplied earlier.tokens mark).kindAt (later.size + 1 + earlier.size) =
        .endOfInput := by
      rw [kindAt, tokenAt_supplied_right]
      exact congrArg Token.kind (tokenAt_size (Script.mk earlier.tokens mark))
    rintro (_ | _) (_ | _)
    · rintro place _ further ⟨rfl, _⟩ ⟨same, _⟩ _ _
      omega
    · rintro place _ _ ⟨rfl, _⟩ ⟨rfl, inside⟩ _ proper
      obtain rfl : place = 0 := by omega
      exact absurd ended proper
    · rintro _ twin further ⟨rfl, inside⟩ ⟨rfl, _⟩ proper _
      obtain rfl : further = 0 := by omega
      exact absurd ended proper
    · rintro _ twin _ ⟨rfl, _⟩ ⟨rfl, _⟩ _ _
      rfl
  results := by
    rintro (_ | _)
    · exact fun _ _ _ _ => trivial
    · rintro _ place ⟨rfl, _⟩ closing colon type result same
      rw [kindAt, tokenAt_supplied_right, ← kindAt, kindAt_mk] at closing
      rw [kindAt, Nat.add_assoc, tokenAt_supplied_right, ← kindAt, kindAt_mk] at colon
      exact .inr ⟨place, closing, colon⟩
  nothing
    | .own => trivial
    | .supplied => fun result same => .inl (Option.some.inj same).symm
  avoids _ _ _ := rfl

end Script

/-- The machine at the beginning of a script that is supplied with the tokens among which the bodies of
its functions stand. -/
def Machine.handedTo (machine : Machine) (script : Script) : Machine :=
  { machine with
    cursor := 0
    functions := machine.functions.map (Function.relocated (script.size + 1 + ·)) }

section

variable {earlier later : Script} {machine : Machine}

/-- Where both scripts follow each other, the machine is the one that the first script ended on. -/
theorem Machine.relocated_handedTo (ended : machine.cursor = earlier.size)
    (outside : machine.frames = []) :
    (machine.handedTo later).relocated (earlier.placeInBoth later) = machine := by
  have functions (table : FunctionTable) :
      (table.map (Function.relocated (later.size + 1 + ·))).map
        (Function.relocated (earlier.placeInBoth later)) = table := by
    rw [List.map_map]
    apply List.map_id''
    intro function
    simp [Function.relocated]
  cases machine
  simp_all [relocated, handedTo]

theorem Script.Avoids.relocated {script : Script} {known : FunctionTable} (avoids : script.Avoids known)
    (move : Nat → Nat) : script.Avoids (known.map (Function.relocated move)) := by
  intro place identifier parenthesis
  rw [FunctionTable.lookup?_relocated, avoids place identifier parenthesis]
  rfl

/-- A function of the first script stands among the tokens that the second one is supplied with. -/
theorem Script.placed_supplied (mark : Position) {function : Function}
    (placed : earlier.alone.Placed earlier function) :
    (earlier.joined later mark).Placed (later.supplied earlier.tokens mark)
      (function.relocated (later.size + 1 + ·)) := by
  have supplied {place : Nat} (inside : place ≤ earlier.size) :
      (earlier.beginning (later.size + 1) mark).places (later.size + 1 + place)
        (earlier.placeInBoth later (later.size + 1 + place)) := by
    rw [placeInBoth_supplied]
    exact ⟨rfl, inside⟩
  obtain ⟨_, ⟨_, starts⟩, ⟨_, finishes⟩, proper, allowed⟩ := placed
  refine ⟨.supplied, supplied starts, supplied finishes, ?_, allowed⟩
  change Script.kindAt _ (later.size + 1 + function.start) ≠ .endOfInput
  rwa [kindAt, tokenAt_supplied_right, ← kindAt, kindAt_mk]

end

/-! ## Programs -/

namespace Exec

/-- If the statements of a program are executed up to the end of its script, the same statements are
executed in a script that goes on there. -/
theorem executed_of_program {transport : Transport} {left right : Script}
    (laws : transport.Laws left right) {evaluator partner : Evaluator}
    (evaluators : transport.Evaluators left evaluator partner) {rounds : Nat}
    {first final second origin : Machine} {count : Nat}
    (ran : program left evaluator rounds first = .ok () final)
    (related : transport.machines first second)
    (executed : Executed partner.statement (followedInProgram right) origin count second) :
    ∃ more last, more < rounds ∧
      Executed partner.statement (followedInProgram right) origin (count + more) last ∧
      transport.machines final last ∧ left.kindAt final.cursor = .endOfInput := by
  induction rounds generalizing first second count with
  | zero => cases ran
  | succ rounds ih =>
      change (if left.kindAt first.cursor = .endOfInput then pure ()
        else evaluator.statement >>= fun _ => program left evaluator rounds : Exec Unit) first =
          .ok () final at ran
      by_cases ended : left.kindAt first.cursor = .endOfInput
      · rw [if_pos ended] at ran
        obtain ⟨-, rfl⟩ := pure_ok ran
        exact ⟨0, second, rounds.succ_pos, executed, related, ended⟩
      · rw [if_neg ended] at ran
        obtain ⟨signal, middle, begun, rest⟩ := bind_ok ran
        have outcomes := evaluators.statement related
        have agree := laws.agree related
        have follows : followedInProgram right second signal := by
          unfold followedInProgram
          rwa [laws.embeds.kind agree.cursor ended]
        rw [begun] at outcomes
        cases other : partner.statement second with
        | error failure between => rw [other] at outcomes; cases outcomes
        | ok twin between =>
            rw [other] at outcomes
            cases outcomes with
            | succeeded same between =>
                subst same
                obtain ⟨more, last, fewer, reached⟩ := ih rest between (.next executed other follows)
                refine ⟨more + 1, last, Nat.succ_lt_succ fewer, ?_⟩
                rwa [Nat.add_right_comm] at reached

/-- The action was refused with a diagnostic at the position. -/
def RefusedAt {α : Type} (position : Position) (outcome : EStateM.Result Failure Machine α) : Prop :=
  ∃ cause final, outcome = .error (.diagnostic ⟨cause, position⟩) final

variable {earlier later : Script}

/-- What the first script executes by itself is executed in both. -/
theorem executed_alone (precedes : earlier.Precedes later) (apart : ¬ earlier.ReturnsInto later)
    {verbosity fuel : Nat} {final : Machine}
    (ran : program earlier (evaluator earlier verbosity fuel) fuel .initial = .ok () final) :
    earlier.alone.Within earlier () final ∧ earlier.kindAt final.cursor = .endOfInput ∧
      ∃ count < fuel, Executed (statement (earlier.append later) verbosity fuel)
        (followedInProgram (earlier.append later)) .initial count final := by
  have relocates := precedes.relocates_alone apart
  have start : (earlier.alone.transport earlier ()).machines .initial .initial :=
    ⟨rfl, ⟨rfl, Nat.zero_le _⟩, nofun, List.forall_mem_nil _⟩
  obtain ⟨count, last, fewer, executed, ⟨rfl, within⟩, ended⟩ :=
    executed_of_program (relocates.laws ()) (relocates.evaluators verbosity fuel ()) ran start .start
  have reached : final.relocated earlier.alone.move = final := final.relocated_id
  rw [reached, Nat.zero_add] at executed
  exact ⟨within, ended, count, fewer, executed⟩

/-- What a relocated script executes is executed where it is relocated to, unless it is refused where
the other script goes on. -/
theorem program_relocated {Part : Type} {relocation : Relocation Part} {left right : Script}
    (relocates : relocation.Relocates left right) (part : Part)
    (closed : ∀ {place twin}, (relocation.parts part).places place twin →
      right.kindAt twin = left.kindAt place)
    {verbosity fuel : Nat} (rounds : Nat) {machine : Machine}
    (within : relocation.Within left part machine) :
    (∃ position, (relocation.parts part).ends position ∧
      RefusedAt position (program left (evaluator left verbosity fuel) rounds machine)) ∨
      program right (evaluator right verbosity fuel) rounds (machine.relocated relocation.move) =
        relocatedOutcome relocation.move
          (program left (evaluator left verbosity fuel) rounds machine) := by
  have outcomes := (relocates.laws part).program (relocates.evaluators verbosity fuel part) closed
    rounds ⟨rfl, within⟩
  generalize program left _ rounds machine = outcome at outcomes ⊢
  generalize program right _ rounds _ = twin at outcomes ⊢
  cases outcomes with
  | succeeded same related =>
      obtain ⟨rfl, -⟩ := related
      exact .inr rfl
  | failed same related =>
      obtain ⟨rfl, -⟩ := related
      rw [same]
      exact .inr rfl
  | excused ends => exact .inl ⟨_, ends, _, _, rfl⟩

end Exec

theorem Run.program_of_succeeded {script : Script} {verbosity fuel : Nat}
    (succeeded : (ofScript script verbosity fuel).failure = none) :
    Exec.program script (Exec.evaluator script verbosity fuel) fuel .initial =
      .ok () (ofScript script verbosity fuel).machine := by
  unfold ofScript at succeeded ⊢
  split at succeeded
  case _ ran => rw [ran]
  case _ => cases succeeded

/-- The past of a program does not depend on its future. If a script is executed to its end by itself,
then the same statements are executed when a statement on a later line follows it, they lead to the
same machine, and what follows is executed from there.

What follows is executed as it is by itself, from that machine and with the functions of the first
script, whose bodies stand among tokens behind its own end: all places are moved, its own ones by the
length of the first script. This fails only if the second script names a function of the first one, and
is refused at the end of the first script.

What follows must not be what a `return` at the end of the first script could take for its value. -/
theorem Run.past_unaffected_by_future {earlier later : Script} (precedes : earlier.Precedes later)
    (apart : ¬ earlier.ReturnsInto later) {verbosity fuel : Nat}
    (succeeded : (ofScript earlier verbosity fuel).failure = none) :
    let both := earlier.append later
    let reached := (ofScript earlier verbosity fuel).machine
    reached.cursor = earlier.size ∧
      (∃ count < fuel,
        Exec.Executed (Exec.statement both verbosity fuel) (Exec.followedInProgram both) .initial
          count reached ∧
        ∀ rounds, Exec.program both (Exec.evaluator both verbosity fuel) (rounds + count) .initial =
          Exec.program both (Exec.evaluator both verbosity fuel) rounds reached) ∧
      ∀ mark rounds,
        let own := later.supplied earlier.tokens mark
        let ended :=
          Exec.program own (Exec.evaluator own verbosity fuel) rounds (reached.handedTo later)
        ¬ later.Avoids reached.functions ∧ Exec.RefusedAt mark ended ∨
          Exec.program both (Exec.evaluator both verbosity fuel) rounds reached =
            Exec.relocatedOutcome (earlier.placeInBoth later) ended := by
  intro both reached
  obtain ⟨within, ended, count, fewer, executed⟩ :=
    Exec.executed_alone precedes apart (program_of_succeeded succeeded)
  have last : reached.cursor = earlier.size :=
    Nat.le_antisymm within.cursor.2 (Nat.le_of_not_lt fun before => precedes.kindAt_ne before ended)
  have outside : reached.frames = [] := by
    obtain ⟨_, kept⟩ := executed.kept (controlDiscipline.evaluates both verbosity fuel).statement
    exact kept.frames
  refine ⟨last, ⟨count, fewer, executed, executed.program_eq⟩, fun mark rounds => ?_⟩
  have start : (reached.handedTo later).relocated (earlier.placeInBoth later) = reached :=
    Machine.relocated_handedTo last outside
  have cursor : earlier.placeInBoth later 0 = earlier.size + 0 :=
    Script.placeInBoth_own (Nat.zero_le _)
  have closed {place twin : Nat} (paired : twin = earlier.size + place ∧ place ≤ later.size) :
      both.kindAt twin = (later.supplied earlier.tokens mark).kindAt place := by
    obtain ⟨rfl, inside⟩ := paired
    rw [Script.kindAt, Script.tokenAt_append_right, Script.kindAt,
      Script.tokenAt_supplied_left inside]
  by_cases avoids : later.Avoids reached.functions
  · have relocates : (earlier.behind later (reached.handedTo later).functions).Relocates
        (later.supplied earlier.tokens mark) both :=
      Script.relocates_behind earlier.tokens mark (avoids.relocated _)
    have placed : (earlier.behind later (reached.handedTo later).functions).Within
        (later.supplied earlier.tokens mark) () (reached.handedTo later) :=
      ⟨⟨cursor, Nat.zero_le _⟩, trivial, fun _ known => .inl known⟩
    rcases Exec.program_relocated relocates () closed rounds placed with ⟨_, ends, _⟩ | same
    · exact ends.elim
    · exact .inr ((congrArg _ start.symm).trans same)
  · have placed : (earlier.joined later mark).Within (later.supplied earlier.tokens mark) .own
        (reached.handedTo later) := by
      refine ⟨⟨cursor, Nat.zero_le _⟩, trivial, fun function known => ?_⟩
      obtain ⟨declared, member, rfl⟩ := List.mem_map.1 known
      exact .inr (Script.placed_supplied mark ((within.functions declared member).resolve_left
        List.not_mem_nil))
    rcases Exec.program_relocated (precedes.relocates_joined apart mark) .own closed rounds placed
      with ⟨_, rfl, refused⟩ | same
    · exact .inl ⟨avoids, refused⟩
    · exact .inr ((congrArg _ start.symm).trans same)

/-- A program that declares a function and calls it, followed by another function that changes a
variable of the first program and calls its function. -/
theorem Run.past_unaffected_by_later_call :
    let earlier := Script.ofSource "x: number = 1\nfunc f(): number { return x }\nprint(f())".toList
    let later := Script.ofSource "\n\n\nfunc g() { x += 1; print(x + f()) }\ng()".toList
    let both := earlier.append later
    let reached := (ofScript earlier 0 30).machine
    let own := later.supplied earlier.tokens earlier.finish
    earlier.Precedes later ∧ ¬ earlier.ReturnsInto later ∧ (ofScript earlier 0 30).failure = none ∧
      ¬ later.Avoids reached.functions ∧ reached.written = "1" ∧ reached.cursor = earlier.size ∧
      ∃ count < 30, ∃ final,
        Exec.program own (Exec.evaluator own 0 30) 10 (reached.handedTo later) = .ok () final ∧
        final.written = "14" ∧
        Exec.program both (Exec.evaluator both 0 30) (10 + count) .initial =
          .ok () (final.relocated (earlier.placeInBoth later)) := by
  intro earlier later both reached own
  have precedes : earlier.Precedes later := ⟨by decide +kernel, by decide +kernel, by decide +kernel⟩
  have apart : ¬ earlier.ReturnsInto later := fun returns => absurd returns.1 (by decide +kernel)
  have succeeded : (ofScript earlier 0 30).failure = none := by decide +kernel
  have calls : later.kindAt 13 = .identifier ∧ later.kindAt 14 = .symbol .leftParen ∧
      reached.functions.lookup? (later.tokenAt 13).word ≠ none := by decide +kernel
  let final := Exec.finalOf (Exec.program own (Exec.evaluator own 0 30) 10 (reached.handedTo later))
  have ran : Exec.program own (Exec.evaluator own 0 30) 10 (reached.handedTo later) = .ok () final ∧
      final.written = "14" := by decide +kernel
  obtain ⟨ended, ⟨count, fewer, _, whole⟩, rest⟩ := past_unaffected_by_future precedes apart succeeded
  have same : ¬ later.Avoids reached.functions ∧ Exec.RefusedAt earlier.finish
        (Exec.program own (Exec.evaluator own 0 30) 10 (reached.handedTo later)) ∨
      Exec.program both (Exec.evaluator both 0 30) 10 reached =
        Exec.relocatedOutcome (earlier.placeInBoth later)
          (Exec.program own (Exec.evaluator own 0 30) 10 (reached.handedTo later)) :=
    rest earlier.finish 10
  refine ⟨precedes, apart, succeeded, fun avoids => calls.2.2 (avoids 13 calls.1 calls.2.1),
    by decide +kernel, ended, count, fewer, ?_⟩
  rw [ran.1] at same
  rcases same with ⟨_, _, _, refused⟩ | same
  · cases refused
  · exact ⟨final, ran.1, ran.2, (whole 10).trans same⟩

/-- Where the beginning of the second script is seen. In the first pair of scripts a `return` at the end
of the first one takes the expression behind it for its value. The loop in `f` passes over its body
while `f` is running. Because of the stray `func` the body goes on as far as the `return` at the end,
which is followed by nothing in the first script, and in both by an expression that is not closed.

In the second pair the second script calls `f`, which passes over a declaration without a body. By
itself the call is refused at the end of the first script; where the second one follows, the braces of
`g` are found. -/
theorem Run.future_seen_from_past :
    (let earlier := Script.ofSource ("func f(): number \x7b\n" ++
        "  for (i: number in 1..2) if (i == 2) return 5 else if (false) func\n" ++
        "\x7d\nif (true) \x7b\n  f()\n  println(\"past\")\n\x7d else if (false) return").toList
      let later := Script.ofSource "\n\n\n\n\n\n\nx (".toList
      let both := earlier.append later
      earlier.Precedes later ∧ (ofScript earlier 0 40).failure = none ∧
        (ofScript earlier 0 40).machine.written = "past\n" ∧
        (ofScript both 0 40).failure = some (.diagnostic
          ⟨.expected (.symbol .rightParen) .endOfInput, ⟨8, 4⟩⟩) ∧
        (ofScript both 0 40).machine.written = "") ∧
    (let earlier := Script.ofSource "func f() \x7b if (false) func \x7d".toList
      let later := Script.ofSource "\nf()\nfunc g() \x7b \x7d\nprintln(\"future\")".toList
      let both := earlier.append later
      let own := later.supplied earlier.tokens earlier.finish
      let reached := (ofScript earlier 0 40).machine
      earlier.Precedes later ∧ ¬ earlier.ReturnsInto later ∧ (ofScript earlier 0 40).failure = none ∧
        Exec.RefusedAt earlier.finish
          (Exec.program own (Exec.evaluator own 0 40) 40 (reached.handedTo later)) ∧
        (ofScript both 0 40).failure = none ∧ (ofScript both 0 40).machine.written = "future\n") := by
  constructor
  · intro earlier later both
    have precedes : earlier.Precedes later :=
      ⟨by decide +kernel, by decide +kernel, by decide +kernel⟩
    have alone : (ofScript earlier 0 40).failure = none ∧
        (ofScript earlier 0 40).machine.written = "past\n" := by decide +kernel
    exact ⟨precedes, alone.1, alone.2, by decide +kernel⟩
  · intro earlier later both own reached
    have precedes : earlier.Precedes later :=
      ⟨by decide +kernel, by decide +kernel, by decide +kernel⟩
    have apart : ¬ earlier.ReturnsInto later := fun returns => absurd returns.1 (by decide +kernel)
    have refused : Exec.program own (Exec.evaluator own 0 40) 40 (reached.handedTo later) =
        .error (.diagnostic ⟨.expected (.symbol .leftBrace) .endOfInput, earlier.finish⟩)
          (Exec.finalOf
            (Exec.program own (Exec.evaluator own 0 40) 40 (reached.handedTo later))) := by
      decide +kernel
    exact ⟨precedes, apart, by decide +kernel, ⟨_, _, refused⟩, by decide +kernel⟩

end Onepass
