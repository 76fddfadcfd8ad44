import Onepass.Proofs.Extent.Agreement
import Onepass.Proofs.Fuel

/-! # The first true branch

A conditional tests the conditions of its branches in order and executes the body of the first one that
holds, or the body behind the `else` if none does. The other bodies are passed over, so nothing but the
cursor tells that they are there. The conditions behind the taken branch are tested too, unless its body
ended with a `break`, a `continue` or a `return`: then the conditional ends there.
-/

set_option autoImplicit false

namespace Onepass

open Script (Reaches)

/-! ## Chains of branches -/

/-- The places of a branch: the parenthesis that opens its condition, the brace that opens its body, and
what follows the body. -/
structure Branch where
  condition : Nat
  body : Nat
  finish : Nat

namespace Script

instance decidableReaches {relation : Nat → Nat → Prop}
    (partEnd : (place : Nat) → Except Diagnostic { next // relation place next })
    (place finish : Nat) : Decidable (Reaches partEnd place finish) :=
  match found : partEnd place with
  | .ok next =>
    decidable_of_iff (next.val = finish)
      ⟨fun same => same ▸ reaches_of_ok found,
        fun ⟨_, ended⟩ => congrArg Subtype.val (Except.ok.inj (found.symm.trans ended))⟩
  | .error _ => isFalse fun ⟨_, ended⟩ => nomatch found.symm.trans ended

/-- The script has a branch with a condition in parentheses and a body in braces at these places. -/
structure HasBranch (script : Script) (branch : Branch) : Prop where
  condition : Reaches script.parenthesesEnd branch.condition branch.body
  body : Reaches script.bracesEnd branch.body branch.finish

instance decidableHasBranch (script : Script) (branch : Branch) : Decidable (script.HasBranch branch) :=
  decidable_of_iff (Reaches script.parenthesesEnd branch.condition branch.body ∧
      Reaches script.bracesEnd branch.body branch.finish)
    ⟨fun ⟨condition, body⟩ => ⟨condition, body⟩, fun ⟨condition, body⟩ => ⟨condition, body⟩⟩

/-- The later branches of a conditional that begin at a place, the body behind the `else` if there is
one, and the place where the conditional ends. -/
inductive HasBranches (script : Script) : Nat → List Branch → Option Nat → Nat → Prop
  | another {branch : Branch} {others : List Branch} {otherwise : Option Nat} {place finish : Nat}
      (begun : script.kindAt place = .keyword .elseIfWord) (first : branch.condition = place + 1)
      (stands : script.HasBranch branch)
      (rest : HasBranches script branch.finish others otherwise finish) :
      HasBranches script place (branch :: others) otherwise finish
  | otherwise {place finish : Nat} (begun : script.kindAt place = .keyword .elseWord)
      (body : Reaches script.bracesEnd (place + 1) finish) :
      HasBranches script place [] (some (place + 1)) finish
  | finished {place : Nat} (notElseIf : script.kindAt place ≠ .keyword .elseIfWord)
      (notElse : script.kindAt place ≠ .keyword .elseWord) : HasBranches script place [] none place

/-- A conditional begins at a place, with at least one branch. -/
inductive HasConditional (script : Script) : Nat → List Branch → Option Nat → Nat → Prop
  | intro {branch : Branch} {others : List Branch} {otherwise : Option Nat} {place finish : Nat}
      (begun : script.kindAt place = .keyword .ifWord) (first : branch.condition = place + 1)
      (stands : script.HasBranch branch)
      (rest : script.HasBranches branch.finish others otherwise finish) :
      HasConditional script place (branch :: others) otherwise finish

end Script

namespace Exec

section

variable (script : Script) (verbosity : Nat)

/-! ## What is evaluated and executed -/

/-- The condition of a branch, evaluated on a machine, comes to a truth value. -/
def Tests (branch : Branch) (machine : Machine) (holds : Bool) (final : Machine) : Prop :=
  Settles (fun fuel => conditionInParentheses script (evaluator script verbosity fuel))
    { machine with cursor := branch.condition } (some (.ok holds final))

/-- The body at a place, executed in a scope of its own, comes to an end. -/
def Executes (place : Nat) (machine : Machine) (signal : Signal) (final : Machine) : Prop :=
  Settles (fun fuel => body script (evaluator script verbosity fuel) .empty fuel)
    { machine with cursor := place } (some (.ok signal final))

/-- The conditions of branches are evaluated one after the other, and each comes to the truth value
beside it. In between only the cursor moves on. -/
inductive Tested : List (Branch × Bool) → Machine → Machine → Prop
  | nil (machine : Machine) : Tested [] machine machine
  | cons {branch : Branch} {holds : Bool} {others : List (Branch × Bool)} {machine middle final : Machine}
      (first : Tests script verbosity branch machine holds middle)
      (rest : Tested others { middle with cursor := branch.finish } final) :
      Tested ((branch, holds) :: others) machine final

/-- The conditions of these branches are evaluated, and none of them holds. -/
abbrev Refused (branches : List Branch) : Machine → Machine → Prop :=
  Tested script verbosity (branches.map fun branch => (branch, false))

/-- What branches come to if none was taken before: the body of the first one whose condition holds is
executed, or the other body if there is none. Nothing is tested behind a body that did not end
normally. -/
inductive RunsFirst (branches : List Branch) (otherwise : Option Nat) (finish : Nat) (machine : Machine) :
    Signal → Machine → Prop
  | taken (before : List Branch) {after : List Branch} {branch : Branch} {answers : List (Branch × Bool)}
      {refused decided left last : Machine} (split : branches = before ++ branch :: after)
      (earlier : Refused script verbosity before machine refused)
      (holds : Tests script verbosity branch refused true decided)
      (executed : Executes script verbosity branch.body decided .normal left)
      (later : Tested script verbosity answers left last) (answered : answers.map Prod.fst = after) :
      RunsFirst branches otherwise finish machine .normal { last with cursor := finish }
  | left (before : List Branch) {after : List Branch} {branch : Branch} {signal : Signal}
      {refused decided final : Machine} (split : branches = before ++ branch :: after)
      (earlier : Refused script verbosity before machine refused)
      (holds : Tests script verbosity branch refused true decided)
      (executed : Executes script verbosity branch.body decided signal final)
      (abnormal : signal ≠ .normal) : RunsFirst branches otherwise finish machine signal final
  | otherwise {place : Nat} {signal : Signal} {refused final : Machine} (there : otherwise = some place)
      (earlier : Refused script verbosity branches machine refused)
      (executed : Executes script verbosity place refused signal final) :
      RunsFirst branches otherwise finish machine signal final
  | skipped {refused : Machine} (absent : otherwise = none)
      (earlier : Refused script verbosity branches machine refused) :
      RunsFirst branches otherwise finish machine .normal { refused with cursor := finish }

end

variable {script : Script} {verbosity fuel rounds place finish : Nat} {evaluator : Evaluator}
variable {branch : Branch} {branches others : List Branch} {otherwise : Option Nat}
variable {machine middle final : Machine} {holds taken : Bool} {signal : Signal}

/-! ## Enough fuel for the parts -/

theorem Tests.eventually (tests : Tests script verbosity branch machine holds final) :
    ∃ enough, ∀ fuel, enough ≤ fuel →
      conditionInParentheses script (Exec.evaluator script verbosity fuel)
        { machine with cursor := branch.condition } = .ok holds final := by
  obtain ⟨enough, settled⟩ := tests
  exact ⟨enough, fun fuel le => eq_of_completed (settled fuel le)⟩

theorem Tests.of_ok (ran : conditionInParentheses script (Exec.evaluator script verbosity fuel)
      { machine with cursor := branch.condition } = .ok holds final) :
    Tests script verbosity branch machine holds final := by
  refine ⟨fuel, fun more le => ?_⟩
  have pairs := (fuelled_laws script).conditionInParentheses (fuelled_evaluators script verbosity le)
  exact completed_of_fuelled (pairs rfl) (congrArg completed ran)

theorem Executes.of_ok
    (ran : body script (Exec.evaluator script verbosity fuel) .empty rounds
      { machine with cursor := place } = .ok signal final) :
    Executes script verbosity place machine signal final := by
  refine ⟨max fuel rounds, fun more le => ?_⟩
  have pairs := (fuelled_laws script).body
    (fuelled_evaluators script verbosity (Nat.le_trans (Nat.le_max_left fuel rounds) le)) .empty
    (.of_le trivial (Nat.le_trans (Nat.le_max_right fuel rounds) le))
  exact completed_of_fuelled (pairs rfl) (congrArg completed ran)

/-- With enough fuel, for the constructs inside and for the rounds, the action ends in this way. -/
def Concludes (action : Nat → Nat → Exec Signal) (machine : Machine) (signal : Signal) (final : Machine) :
    Prop :=
  ∃ enough, ∀ fuel rounds, enough ≤ fuel → enough ≤ rounds →
    action fuel rounds machine = .ok signal final

theorem Executes.ends (executes : Executes script verbosity place machine signal final) :
    Concludes (fun fuel rounds => body script (Exec.evaluator script verbosity fuel) .empty rounds)
      { machine with cursor := place } signal final := by
  obtain ⟨enough, settled⟩ := executes
  refine ⟨enough, fun fuel rounds le more => ?_⟩
  have pairs := (fuelled_laws script).body (fuelled_evaluators script verbosity le) .empty
    (.of_le trivial more)
  exact eq_of_completed (completed_of_fuelled (pairs rfl) (settled enough (Nat.le_refl _)))

/-! ## Single steps -/

/-- What follows a body: the other branches, unless it did not end normally. -/
def resume (others : Exec Signal) : Signal → Exec Signal
  | .normal => others
  | signal => return signal

/-- Tests a branch, executes its body or passes over it, and goes on with the other branches. -/
def branchOnwards (script : Script) (evaluator : Evaluator) (rounds : Nat) (taken : Bool) :
    Exec Signal := do
  let holds ← conditionInParentheses script evaluator
  if holds && !taken then
    resume (Exec.branches script evaluator rounds true) (← body script evaluator .empty rounds)
  else
    passBody script
    Exec.branches script evaluator rounds taken

theorem conditional_eq (begun : script.kindAt machine.cursor = .keyword .ifWord) :
    conditional script evaluator rounds machine =
      branchOnwards script evaluator rounds false { machine with cursor := machine.cursor + 1 } := by
  rw [conditional, bind_of_ok (expect_eq begun nofun), branchOnwards]
  refine congrFun (bind_congr fun holds => ?_) _
  cases holds with
  | false => rfl
  | true => exact bind_congr fun signal => by cases signal <;> rfl

theorem branches_another (begun : script.kindAt machine.cursor = .keyword .elseIfWord) :
    Exec.branches script evaluator (rounds + 1) taken machine =
      branchOnwards script evaluator rounds taken { machine with cursor := machine.cursor + 1 } := by
  rw [Exec.branches, bind_of_ok (accept_of_there begun nofun), if_pos rfl, branchOnwards]
  refine congrFun (bind_congr fun holds => ?_) _
  cases holds && !taken with
  | false => rfl
  | true => exact bind_congr fun signal => by cases signal <;> rfl

theorem branches_otherwise (begun : script.kindAt machine.cursor = .keyword .elseWord) :
    Exec.branches script evaluator (rounds + 1) taken machine =
      (if taken then do
          passBody script
          return .normal
        else body script evaluator .empty rounds : Exec Signal)
        { machine with cursor := machine.cursor + 1 } := by
  rw [Exec.branches, bind_of_ok (accept_of_absent (by rw [begun]; nofun)), if_neg Bool.false_ne_true,
    bind_of_ok (accept_of_there begun nofun), if_pos rfl]

theorem branches_finished (notElseIf : script.kindAt machine.cursor ≠ .keyword .elseIfWord)
    (notElse : script.kindAt machine.cursor ≠ .keyword .elseWord) :
    Exec.branches script evaluator (rounds + 1) taken machine = .ok .normal machine := by
  rw [Exec.branches, bind_of_ok (accept_of_absent notElseIf), if_neg Bool.false_ne_true,
    bind_of_ok (accept_of_absent notElse), if_neg Bool.false_ne_true]
  rfl

/-- A body in braces is passed over up to what follows it. -/
theorem passBody_of_braces (body : Reaches script.bracesEnd machine.cursor finish) :
    passBody script machine = .ok () { machine with cursor := finish } := by
  have reached : Reaches (script.bodyEnd machine.running) machine.cursor finish := by
    rwa [Reaches, Script.bodyEnd_of_brace (Script.kindAt_of_bracesEnd body)]
  exact passOver_of_reaches reached

/-! ## Where the parts end -/

theorem condition_ends (agrees : evaluator.Agrees script) (stands : script.HasBranch branch)
    (read : conditionInParentheses script evaluator { machine with cursor := branch.condition } =
      .ok holds middle) : middle.cursor = branch.body :=
  (condition_read agrees read).1.reaches.unique stands.condition

theorem body_ends (agrees : evaluator.Agrees script) (block : Reaches script.bracesEnd place finish)
    (ran : body script evaluator .empty rounds { machine with cursor := place } = .ok .normal final) :
    final.cursor = finish :=
  (body_passage agrees ran).same_end block

/-! ## From executions to what they test and execute -/

theorem exists_round (ran : Exec.branches script evaluator rounds taken machine = .ok signal final) :
    ∃ left, rounds = left + 1 := by
  cases rounds with
  | zero => exact absurd ran throw_ne_ok
  | succ left => exact ⟨left, rfl⟩

/-- After a branch was taken, the conditions of the others are only tested. -/
theorem tested_of_branches (agrees : (Exec.evaluator script verbosity fuel).Agrees script)
    (has : script.HasBranches place others otherwise finish) (here : machine.cursor = place)
    (ran : Exec.branches script (Exec.evaluator script verbosity fuel) rounds true machine =
      .ok signal final) :
    signal = .normal ∧ ∃ answers last, answers.map Prod.fst = others ∧
      Tested script verbosity answers machine last ∧ final = { last with cursor := finish } := by
  induction has generalizing machine rounds with
  | another begun first stands _ ih =>
      obtain ⟨rounds, rfl⟩ := exists_round ran
      rw [branches_another (by rw [here]; exact begun), here, ← first] at ran
      obtain ⟨holds, middle, read, ran⟩ := bind_ok ran
      rw [Bool.not_true, Bool.and_false, if_neg Bool.false_ne_true] at ran
      have there := condition_ends agrees stands read
      have skipped : passBody script middle = _ := passBody_of_braces (there ▸ stands.body)
      rw [bind_of_ok skipped] at ran
      obtain ⟨normal, answers, last, answered, tested, ended⟩ := ih rfl ran
      exact ⟨normal, (_, holds) :: answers, last, congrArg (_ :: ·) answered,
        .cons (.of_ok read) tested, ended⟩
  | otherwise begun block =>
      obtain ⟨rounds, rfl⟩ := exists_round ran
      rw [branches_otherwise (by rw [here]; exact begun), if_pos rfl, here] at ran
      have skipped : passBody script { machine with cursor := _ } = _ := passBody_of_braces block
      rw [bind_of_ok skipped] at ran
      obtain ⟨normal, ended⟩ := pure_ok ran
      exact ⟨normal, [], machine, rfl, .nil machine, ended⟩
  | finished notElseIf notElse =>
      obtain ⟨rounds, rfl⟩ := exists_round ran
      rw [branches_finished (by rw [here]; exact notElseIf) (by rw [here]; exact notElse)] at ran
      cases ran
      exact ⟨rfl, [], final, rfl, .nil final, by rw [← here]⟩

/-- Another branch whose condition does not hold may stand before the others. -/
theorem RunsFirst.after (first : Tests script verbosity branch machine false middle)
    (runs : RunsFirst script verbosity others otherwise finish { middle with cursor := branch.finish }
      signal final) :
    RunsFirst script verbosity (branch :: others) otherwise finish machine signal final := by
  cases runs with
  | taken before split earlier holds executed later answered =>
      exact .taken (branch :: before) (congrArg (branch :: ·) split) (.cons first earlier) holds executed
        later answered
  | left before split earlier holds executed abnormal =>
      exact .left (branch :: before) (congrArg (branch :: ·) split) (.cons first earlier) holds executed
        abnormal
  | otherwise there earlier executed => exact .otherwise there (.cons first earlier) executed
  | skipped absent earlier => exact .skipped absent (.cons first earlier)

/-- What a branch does while none is taken, given what the branches after it do. -/
theorem runsFirst_of_branch (agrees : (Exec.evaluator script verbosity fuel).Agrees script)
    (stands : script.HasBranch branch) (has : script.HasBranches branch.finish others otherwise finish)
    (onwards : ∀ {machine}, machine.cursor = branch.finish →
      Exec.branches script (Exec.evaluator script verbosity fuel) rounds false machine = .ok signal final →
      RunsFirst script verbosity others otherwise finish machine signal final)
    (ran : branchOnwards script (Exec.evaluator script verbosity fuel) rounds false
      { machine with cursor := branch.condition } = .ok signal final) :
    RunsFirst script verbosity (branch :: others) otherwise finish machine signal final := by
  obtain ⟨holds, middle, read, ran⟩ := bind_ok ran
  have there := condition_ends agrees stands read
  cases holds with
  | false =>
      have skipped : passBody script middle = _ := passBody_of_braces (there ▸ stands.body)
      rw [Bool.false_and, if_neg Bool.false_ne_true, bind_of_ok skipped] at ran
      exact .after (.of_ok read) (onwards rfl ran)
  | true =>
      rw [Bool.not_false, Bool.and_true, if_pos rfl] at ran
      obtain ⟨outcome, left, executed, ran⟩ := bind_ok ran
      have block : middle = { middle with cursor := branch.body } := by rw [← there]
      rw [block] at executed
      by_cases normal : outcome = .normal
      · subst normal
        obtain ⟨rfl, answers, last, answered, tested, rfl⟩ :=
          tested_of_branches agrees has (body_ends agrees stands.body executed) ran
        exact .taken [] rfl (.nil machine) (.of_ok read) (.of_ok executed) tested answered
      · have same : signal = outcome ∧ final = left := by
          cases outcome <;> first | exact absurd rfl normal | exact pure_ok ran
        obtain ⟨rfl, rfl⟩ := same
        exact .left [] rfl (.nil machine) (.of_ok read) (.of_ok executed) normal

theorem runsFirst_of_branches (agrees : (Exec.evaluator script verbosity fuel).Agrees script)
    (has : script.HasBranches place others otherwise finish) (here : machine.cursor = place)
    (ran : Exec.branches script (Exec.evaluator script verbosity fuel) rounds false machine =
      .ok signal final) :
    RunsFirst script verbosity others otherwise finish machine signal final := by
  induction has generalizing machine rounds with
  | another begun first stands rest ih =>
      obtain ⟨rounds, rfl⟩ := exists_round ran
      rw [branches_another (by rw [here]; exact begun), here, ← first] at ran
      exact runsFirst_of_branch agrees stands rest ih ran
  | otherwise begun block =>
      obtain ⟨rounds, rfl⟩ := exists_round ran
      rw [branches_otherwise (by rw [here]; exact begun), if_neg Bool.false_ne_true, here] at ran
      exact .otherwise rfl (.nil machine) (.of_ok ran)
  | finished notElseIf notElse =>
      obtain ⟨rounds, rfl⟩ := exists_round ran
      rw [branches_finished (by rw [here]; exact notElseIf) (by rw [here]; exact notElse)] at ran
      cases ran
      subst here
      exact .skipped rfl (.nil final)

/-! ## From what is tested and executed to executions -/

/-- A construct that takes one round for a branch ends as the branch does. -/
theorem Concludes.round {action onwards : Nat → Nat → Exec Signal} {start : Machine}
    (ends : Concludes onwards start signal final)
    (same : ∀ fuel rounds, action fuel (rounds + 1) machine = onwards fuel rounds start) :
    Concludes action machine signal final := by
  obtain ⟨enough, ends⟩ := ends
  refine ⟨enough + 1, fun fuel rounds le more => ?_⟩
  obtain ⟨rounds, rfl⟩ : ∃ left, rounds = left + 1 := ⟨rounds - 1, by omega⟩
  rw [same]
  exact ends fuel rounds (by omega) (by omega)

theorem Concludes.once {action : Nat → Nat → Exec Signal}
    (same : ∀ fuel rounds, action fuel (rounds + 1) machine = .ok signal final) :
    Concludes action machine signal final := by
  refine ⟨1, fun fuel rounds _ more => ?_⟩
  obtain ⟨rounds, rfl⟩ : ∃ left, rounds = left + 1 := ⟨rounds - 1, by omega⟩
  exact same fuel rounds

/-- A branch that is not executed is tested and passed over. -/
theorem Concludes.branch_passed (agrees : ∀ fuel, (Exec.evaluator script verbosity fuel).Agrees script)
    (stands : script.HasBranch branch) (tests : Tests script verbosity branch machine holds middle)
    (refused : (holds && !taken) = false)
    (ends : Concludes (fun fuel rounds =>
        Exec.branches script (Exec.evaluator script verbosity fuel) rounds taken)
      { middle with cursor := branch.finish } signal final) :
    Concludes (fun fuel rounds => branchOnwards script (Exec.evaluator script verbosity fuel) rounds taken)
      { machine with cursor := branch.condition } signal final := by
  obtain ⟨enough, reads⟩ := tests.eventually
  obtain ⟨plenty, ends⟩ := ends
  refine ⟨max enough plenty, fun fuel rounds le more => ?_⟩
  have read := reads fuel (by omega)
  have there := condition_ends (agrees fuel) stands read
  have skipped : passBody script middle = _ := passBody_of_braces (there ▸ stands.body)
  change branchOnwards script _ rounds taken _ = _
  rw [branchOnwards, bind_of_ok read, refused, if_neg Bool.false_ne_true, bind_of_ok skipped]
  exact ends fuel rounds (by omega) (by omega)

/-- A branch whose condition holds while none is taken is executed, and then followed by the others if its
body ended normally. -/
theorem Concludes.branch_executed (agrees : ∀ fuel, (Exec.evaluator script verbosity fuel).Agrees script)
    (stands : script.HasBranch branch) (tests : Tests script verbosity branch machine true middle)
    {outcome : Signal} {left : Machine}
    (executes : Executes script verbosity branch.body middle outcome left)
    (rest : outcome ≠ .normal ∧ signal = outcome ∧ final = left ∨
      outcome = .normal ∧ (left.cursor = branch.finish →
        Concludes (fun fuel rounds =>
          Exec.branches script (Exec.evaluator script verbosity fuel) rounds true) left signal final)) :
    Concludes (fun fuel rounds => branchOnwards script (Exec.evaluator script verbosity fuel) rounds false)
      { machine with cursor := branch.condition } signal final := by
  obtain ⟨enough, reads⟩ := tests.eventually
  obtain ⟨plenty, bodies⟩ := executes.ends
  have block : middle = { middle with cursor := branch.body } := by
    rw [← condition_ends (agrees enough) stands (reads enough (Nat.le_refl _))]
  -- Whatever the fuel, both parts end as they do.
  have begins (fuel rounds : Nat) (le : max enough plenty ≤ fuel) (more : plenty ≤ rounds) :
      branchOnwards script (Exec.evaluator script verbosity fuel) rounds false
        { machine with cursor := branch.condition } =
      resume (Exec.branches script (Exec.evaluator script verbosity fuel) rounds true) outcome left := by
    have executed := bodies fuel rounds (by omega) more
    rw [← block] at executed
    rw [branchOnwards, bind_of_ok (reads fuel (by omega)), Bool.not_false, Bool.and_true, if_pos rfl,
      bind_of_ok executed]
  rcases rest with ⟨abnormal, rfl, rfl⟩ | ⟨rfl, others⟩
  · refine ⟨max enough plenty, fun fuel rounds le more => (begins fuel rounds le (by omega)).trans ?_⟩
    cases signal <;> first | exact absurd rfl abnormal | rfl
  · have there := body_ends (agrees plenty) stands.body
      (bodies plenty plenty (Nat.le_refl _) (Nat.le_refl _))
    obtain ⟨ample, ends⟩ := others there
    refine ⟨max (max enough plenty) ample, fun fuel rounds le more => ?_⟩
    exact (begins fuel rounds (by omega) (by omega)).trans (ends fuel rounds (by omega) (by omega))

theorem ends_of_tested (agrees : ∀ fuel, (Exec.evaluator script verbosity fuel).Agrees script)
    (has : script.HasBranches place others otherwise finish) (here : machine.cursor = place)
    {answers : List (Branch × Bool)} (answered : answers.map Prod.fst = others)
    (tested : Tested script verbosity answers machine final) :
    Concludes (fun fuel rounds => Exec.branches script (Exec.evaluator script verbosity fuel) rounds true)
      machine .normal { final with cursor := finish } := by
  induction has generalizing machine answers with
  | another begun first stands _ ih =>
      cases tested with
      | nil => cases answered
      | cons tests rest =>
          obtain ⟨rfl, covered⟩ := List.cons.inj answered
          have ends := Concludes.branch_passed agrees stands tests (Bool.and_false _) (ih rfl covered rest)
          refine ends.round fun fuel rounds => ?_
          rw [branches_another (by rw [here]; exact begun), here, ← first]
  | otherwise begun block =>
      obtain rfl := List.map_eq_nil_iff.mp answered
      cases tested
      refine Concludes.once fun fuel rounds => ?_
      have skipped : passBody script { final with cursor := _ } = _ := passBody_of_braces block
      rw [branches_otherwise (by rw [here]; exact begun), if_pos rfl, here, bind_of_ok skipped]
      rfl
  | finished notElseIf notElse =>
      obtain rfl := List.map_eq_nil_iff.mp answered
      cases tested
      refine Concludes.once fun fuel rounds => ?_
      rw [branches_finished (by rw [here]; exact notElseIf) (by rw [here]; exact notElse), ← here]

/-- What the first of some branches does. -/
theorem RunsFirst.first_or_after
    (runs : RunsFirst script verbosity (branch :: others) otherwise finish machine signal final) :
    (∃ middle, Tests script verbosity branch machine false middle ∧
      RunsFirst script verbosity others otherwise finish { middle with cursor := branch.finish }
        signal final) ∨
    ∃ middle outcome left, Tests script verbosity branch machine true middle ∧
      Executes script verbosity branch.body middle outcome left ∧
      (outcome ≠ .normal ∧ signal = outcome ∧ final = left ∨
        outcome = .normal ∧ signal = .normal ∧ ∃ answers last, answers.map Prod.fst = others ∧
          Tested script verbosity answers left last ∧ final = { last with cursor := finish }) := by
  cases runs with
  | taken before split earlier holds executed later answered =>
      cases before with
      | nil =>
          obtain ⟨rfl, rfl⟩ := List.cons.inj split
          cases earlier
          exact .inr ⟨_, _, _, holds, executed, .inr ⟨rfl, rfl, _, _, answered, later, rfl⟩⟩
      | cons first before =>
          obtain ⟨rfl, rest⟩ := List.cons.inj split
          cases earlier with
          | cons tests earlier =>
              exact .inl ⟨_, tests, .taken before rest earlier holds executed later answered⟩
  | left before split earlier holds executed abnormal =>
      cases before with
      | nil =>
          obtain ⟨rfl, rfl⟩ := List.cons.inj split
          cases earlier
          exact .inr ⟨_, _, _, holds, executed, .inl ⟨abnormal, rfl, rfl⟩⟩
      | cons first before =>
          obtain ⟨rfl, rest⟩ := List.cons.inj split
          cases earlier with
          | cons tests earlier => exact .inl ⟨_, tests, .left before rest earlier holds executed abnormal⟩
  | otherwise there earlier executed =>
      cases earlier with
      | cons tests earlier => exact .inl ⟨_, tests, .otherwise there earlier executed⟩
  | skipped absent earlier =>
      cases earlier with
      | cons tests earlier => exact .inl ⟨_, tests, .skipped absent earlier⟩

theorem ends_of_branch (agrees : ∀ fuel, (Exec.evaluator script verbosity fuel).Agrees script)
    (stands : script.HasBranch branch) (has : script.HasBranches branch.finish others otherwise finish)
    (onwards : ∀ {machine}, machine.cursor = branch.finish →
      RunsFirst script verbosity others otherwise finish machine signal final →
      Concludes (fun fuel rounds => Exec.branches script (Exec.evaluator script verbosity fuel) rounds false)
        machine signal final)
    (runs : RunsFirst script verbosity (branch :: others) otherwise finish machine signal final) :
    Concludes (fun fuel rounds => branchOnwards script (Exec.evaluator script verbosity fuel) rounds false)
      { machine with cursor := branch.condition } signal final := by
  rcases runs.first_or_after with ⟨middle, tests, others⟩ | ⟨middle, outcome, left, tests, executes, rest⟩
  · exact .branch_passed agrees stands tests rfl (onwards rfl others)
  · refine .branch_executed agrees stands tests executes (rest.imp_right ?_)
    rintro ⟨normal, rfl, answers, last, answered, tested, rfl⟩
    exact ⟨normal, fun there => ends_of_tested agrees has there answered tested⟩

theorem ends_of_runsFirst (agrees : ∀ fuel, (Exec.evaluator script verbosity fuel).Agrees script)
    (has : script.HasBranches place others otherwise finish) (here : machine.cursor = place)
    (runs : RunsFirst script verbosity others otherwise finish machine signal final) :
    Concludes (fun fuel rounds => Exec.branches script (Exec.evaluator script verbosity fuel) rounds false)
      machine signal final := by
  induction has generalizing machine with
  | another begun first stands rest ih =>
      refine (ends_of_branch agrees stands rest ih runs).round fun fuel rounds => ?_
      rw [branches_another (by rw [here]; exact begun), here, ← first]
  | otherwise begun block =>
      cases runs with
      | taken before split | left before split => cases before <;> cases split
      | skipped absent => cases absent
      | otherwise there earlier executed =>
          obtain rfl := Option.some.inj there
          cases earlier
          refine executed.ends.round fun fuel rounds => ?_
          rw [branches_otherwise (by rw [here]; exact begun), if_neg Bool.false_ne_true, here]
  | finished notElseIf notElse =>
      cases runs with
      | taken before split | left before split => cases before <;> cases split
      | otherwise there => cases there
      | skipped _ earlier =>
          cases earlier
          refine Concludes.once fun fuel rounds => ?_
          rw [branches_finished (by rw [here]; exact notElseIf) (by rw [here]; exact notElse), ← here]

/-! ## Conditionals as statements -/

theorem evaluator_agrees (nested : script.WellNested) (headers : script.ClearHeaders)
    (verbosity fuel : Nat) : (Exec.evaluator script verbosity fuel).Agrees script :=
  ⟨controlDiscipline.evaluates script verbosity fuel, expression_moves script verbosity fuel,
    statement_course nested headers verbosity⟩

theorem statement_of_conditional (begun : script.kindAt machine.cursor = .keyword .ifWord) :
    statement script verbosity (fuel + 1) machine =
      branchOnwards script (Exec.evaluator script verbosity fuel) fuel false
        { observed script verbosity machine with cursor := machine.cursor + 1 } := by
  change dispatch script verbosity (Exec.evaluator script verbosity fuel) fuel machine = _
  rw [dispatch_eq, begun]
  have reached : script.kindAt (observed script verbosity machine).cursor = .keyword .ifWord := begun
  exact conditional_eq reached

/-- A conditional whose bodies are in braces ends just as testing its conditions in order and executing
the body of the first one that holds does. -/
theorem first_true_branch_runs_iff (nested : script.WellNested) (headers : script.ClearHeaders)
    (verbosity : Nat) (machine : Machine) {branches : List Branch} {otherwise : Option Nat} {finish : Nat}
    (stands : script.HasConditional machine.cursor branches otherwise finish) (signal : Signal)
    (final : Machine) :
    Settles (statement script verbosity) machine (some (.ok signal final)) ↔
      RunsFirst script verbosity branches otherwise finish (observed script verbosity machine) signal
        final := by
  have agrees := evaluator_agrees nested headers verbosity
  generalize here : machine.cursor = place at stands
  obtain ⟨begun, first, branch, rest⟩ := stands
  rw [← here] at begun first
  constructor
  · intro settles
    obtain ⟨fuel, ran⟩ := settles.exists_eq
    cases fuel with
    | zero => cases ran
    | succ fuel =>
        rw [statement_of_conditional begun, ← first] at ran
        exact runsFirst_of_branch (agrees fuel) branch rest (runsFirst_of_branches (agrees fuel) rest) ran
  · intro runs
    obtain ⟨enough, ends⟩ := ends_of_branch agrees branch rest (ends_of_runsFirst agrees rest) runs
    refine ⟨enough + 1, fun fuel le => ?_⟩
    obtain ⟨fuel, rfl⟩ : ∃ left, fuel = left + 1 := ⟨fuel - 1, by omega⟩
    rw [statement_of_conditional begun, ← first]
    exact congrArg completed (ends fuel fuel (by omega) (by omega))

/-- Of two conditions that hold, the first one counts. -/
theorem second_branch_runs :
    let script := Script.ofSource
      ("if (false) { println(1) } else if (true) { println(2) } " ++
        "else if (true) { println(3) } else { println(4) }").toList
    let final := finalOf (statement script 0 12 .initial)
    (script.WellNested ∧ script.ClearHeaders ∧
      script.HasConditional 0 [⟨1, 4, 10⟩, ⟨11, 14, 20⟩, ⟨21, 24, 30⟩] (some 31) 37) ∧
      RunsFirst script 0 [⟨1, 4, 10⟩, ⟨11, 14, 20⟩, ⟨21, 24, 30⟩] (some 31) 37 (observed script 0 .initial)
        .normal final ∧ final.written = "2\n" := by
  intro script final
  obtain ⟨nested, headers, ⟨begun, first⟩, ⟨again, second⟩, ⟨more, third⟩, ⟨other, body⟩, ran, printed⟩ :
      script.WellNested ∧ script.ClearHeaders ∧
        (script.kindAt 0 = .keyword .ifWord ∧ script.HasBranch ⟨1, 4, 10⟩) ∧
        (script.kindAt 10 = .keyword .elseIfWord ∧ script.HasBranch ⟨11, 14, 20⟩) ∧
        (script.kindAt 20 = .keyword .elseIfWord ∧ script.HasBranch ⟨21, 24, 30⟩) ∧
        (script.kindAt 30 = .keyword .elseWord ∧ Reaches script.bracesEnd 31 37) ∧
        statement script 0 12 .initial = .ok .normal final ∧ final.written = "2\n" := by
    decide +kernel
  have stands : script.HasConditional 0 [⟨1, 4, 10⟩, ⟨11, 14, 20⟩, ⟨21, 24, 30⟩] (some 31) 37 :=
    .intro begun rfl first (.another again rfl second (.another more rfl third (.otherwise other body)))
  have settles : Settles (statement script 0) .initial (some (.ok .normal final)) :=
    ⟨12, fun fuel le => completed_of_fuelled ((fuelled_evaluators script 0 le).statement rfl)
      (congrArg completed ran)⟩
  exact ⟨⟨nested, headers, stands⟩,
    (first_true_branch_runs_iff nested headers 0 .initial stands .normal final).mp settles, printed⟩

end Exec

end Onepass
