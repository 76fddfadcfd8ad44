import Onepass.Proofs.Tree.Agreement
import Onepass.Proofs.Tree.Assignment
import Onepass.Proofs.Tree.CallFree

/-! # Compound assignments written out

A compound assignment finds its destination once and reads the value there before its operand is evaluated.
Written out with the operator in an expression, it evaluates the destination a second time, as an operand.
Both come to the same: the indices are evaluated to the same values again as long as they make no calls and
no arrays, and they lead to the value that was found.
-/

set_option autoImplicit false

namespace Onepass

/-! ## Assignments written out -/

namespace Phrase

variable {container : Phrase} {places : List Phrase}

theorem tokens_elements (container : Phrase) (places : List Phrase) :
    (places.foldl element container).tokens = container.tokens ++ places.flatMap bracketed := by
  induction places generalizing container with
  | nil => exact (List.append_nil _).symm
  | cons place places ih => rw [List.foldl_cons, ih, List.flatMap_cons, element, List.append_assoc]

theorem tree_elements (container : Phrase) (places : List Phrase) :
    (places.foldl element container).tree = (places.map tree).foldl Expr.index container.tree := by
  induction places generalizing container with
  | nil => rfl
  | cons place places ih => exact ih _

theorem written_elements (written : Written 7 container) (inside : ∀ place ∈ places, Written 0 place) :
    Written 7 (places.foldl element container) := by
  induction places generalizing container with
  | nil => exact written
  | cons place places ih =>
      exact ih (.index written (inside place List.mem_cons_self))
        fun place member => inside place (List.mem_cons_of_mem _ member)

/-- A phrase in parentheses. -/
def grouped (phrase : Phrase) : Phrase :=
  ⟨phrase.tree, .mark .leftParen :: (phrase.tokens ++ [.mark .rightParen]), .closed⟩

/-- Two phrases joined by an operator. -/
def joined (operator : BinaryOperator) (left right : Phrase) : Phrase :=
  ⟨.binary operator left.tree right.tree, left.tokens ++ .mark operator.symbol :: right.tokens, right.tail⟩

/-- The number one. -/
def one : Phrase :=
  ⟨.number "1", (Expr.number "1").tokens, .closed⟩

end Phrase

/-- The destination as an expression. -/
def Destination.phrase (destination : Destination) : Phrase :=
  destination.places.foldl Phrase.element
    ⟨.named false destination.name, (Expr.named false destination.name).tokens, .name⟩

theorem Destination.tokens_phrase (destination : Destination) :
    destination.phrase.tokens = destination.tokens :=
  Phrase.tokens_elements _ _

theorem Destination.written_phrase {destination : Destination} (written : destination.IsWritten) :
    Written 7 destination.phrase :=
  Phrase.written_elements (.named false destination.name) written

/-- The assignment with its operator written out: `t op= e` as `t = t op (e)`, and a step as a compound
assignment with one. An assignment without an operator is written out already. -/
def Assignment.expanded : Assignment → Assignment
  | ⟨destination, .replaced value⟩ => ⟨destination, .replaced value⟩
  | ⟨destination, .combined compound operand⟩ =>
    ⟨destination, .replaced (destination.phrase.joined compound.operator operand.grouped)⟩
  | ⟨destination, .increased⟩ => ⟨destination, .combined ⟨.add, .plusEqual, rfl⟩ .one⟩
  | ⟨destination, .decreased⟩ => ⟨destination, .combined ⟨.sub, .minusEqual, rfl⟩ .one⟩

/-- Written out, a compound assignment has the destination twice and the operand in parentheses. -/
theorem Assignment.tokens_expanded (destination : Destination) (compound : Compound) (operand : Phrase) :
    (Assignment.expanded ⟨destination, .combined compound operand⟩).tokens =
      destination.tokens ++ .mark .equal :: (destination.tokens ++ .mark compound.operator.symbol ::
        .mark .leftParen :: (operand.tokens ++ [.mark .rightParen])) := by
  have written : (Assignment.expanded ⟨destination, .combined compound operand⟩).tokens =
      destination.tokens ++ .mark .equal :: (destination.phrase.tokens ++ _) := rfl
  rw [written, destination.tokens_phrase]
  rfl

theorem Assignment.IsWritten.expanded {assignment : Assignment} (written : assignment.IsWritten) :
    assignment.expanded.IsWritten := by
  obtain ⟨destination, change⟩ := assignment
  obtain ⟨places, operand⟩ := written
  refine ⟨?_, ?_⟩
  · cases change <;> exact places
  · cases change with
    | replaced value => exact operand
    | combined compound right =>
        rintro _ ⟨⟩
        have leftWithin : compound.operator.rank.leftLevel ≤ 7 := by
          cases compound.operator <;> decide
        have rightWithin : compound.operator.rank.level + 1 ≤ 7 :=
          Nat.succ_le_succ (Nat.le_of_lt compound.operator.rank.level_lt)
        have left := (destination.written_phrase places).loosened (Nat.le_refl 7) leftWithin
        have grouped := (Written.grouped (operand right rfl)).loosened (Nat.le_refl 7) rightWithin
        have within : compound.operator.rank.level ≤ 7 := Nat.le_of_succ_le rightWithin
        exact (Written.binary compound.operator left grouped).loosened within (Nat.zero_le _)
    | increased | decreased =>
        rintro _ ⟨⟩
        exact (Written.number "1").loosened (Nat.le_refl 7) (Nat.zero_le _)

namespace Exec

variable {script : Script} {verbosity fuel : Nat} {machine : Machine}

/-! ## Evaluating a destination again -/

/-- What follows an action matters where the action succeeds only. -/
theorem bind_congr_ok {α β : Type} {action : Exec α} {next other : α → Exec β}
    (same : ∀ value middle, action machine = .ok value middle → next value middle = other value middle) :
    (action >>= next) machine = (action >>= other) machine := by
  cases ran : action machine with
  | ok value middle => rw [bind_of_ok ran, bind_of_ok ran, same value middle ran]
  | error failure middle => rw [bind_of_error ran, bind_of_error ran]

/-- The last index selects the element that is there. -/
theorem elementAt_of_selected {name token : Token} {value index : Value} {address : Address} {slot : Nat}
    (selected : selectElement name value [(token, index)] machine = .ok (.element address slot) machine) :
    elementAt value index token machine = .ok ((machine.heap.items address).getD slot .null) machine := by
  unfold selectElement at selected
  cases value with
  | array found =>
      obtain ⟨place, middle, placed, ended⟩ := bind_ok (get_bind_ok selected)
      obtain ⟨same, rfl⟩ := pure_ok ended
      cases same
      rw [elementAt, get_bind_eq, bind_of_ok placed]
      rfl
  | _ => exact absurd selected refuse_ne_ok

/-- An element that was selected is found again when its indices are evaluated behind a container. -/
theorem evaluate_elements {name : Token} {address : Address} {slot : Nat} {trees : List Expr}
    (quiet : ∀ tree ∈ trees, tree.CallFree False) {container : Expr} {value : Value} {indices : List Value}
    (found : container.evaluate script verbosity fuel machine = .ok value machine)
    (evaluated : Expr.evaluateAll script verbosity fuel trees machine = .ok indices machine)
    (selected : selectElement name value (indices.map (Token.mark .leftBracket, ·)) machine =
      .ok (.element address slot) machine) :
    (trees.foldl Expr.index container).evaluate script verbosity fuel machine =
      .ok ((machine.heap.items address).getD slot .null) machine := by
  induction trees generalizing container value indices with
  | nil =>
      obtain ⟨rfl, -⟩ := pure_ok evaluated
      cases selected
  | cons tree trees ih =>
      obtain ⟨index, _, chosen, following⟩ := bind_ok evaluated
      obtain rfl := (quiet tree List.mem_cons_self).unchanging.ok chosen
      obtain ⟨rest, _, others, ended⟩ := bind_ok following
      obtain ⟨rfl, rfl⟩ := pure_ok ended
      have reached := Expr.evaluate_index found chosen
      cases rest with
      | nil =>
          have last : trees = [] := List.length_eq_zero_iff.mp (Expr.evaluateAll_length others).symm
          subst last
          exact reached.trans (elementAt_of_selected selected)
      | cons next rest =>
          obtain ⟨element, _, inside, behind⟩ := bind_ok selected
          obtain rfl := (unchanged.elementAt _ _ _).ok inside
          exact ih (fun tree member => quiet tree (List.mem_cons_of_mem _ member)) (reached.trans inside)
            others behind

/-- The value of the destination is the value of its expression. -/
theorem evaluate_destination {destination : Destination} {binding : Binding} {target : Target}
    {indices : List Value} (quiet : ∀ tree ∈ destination.indices, tree.CallFree False)
    (bound : bindingOf (.name destination.name) machine = .ok binding machine)
    (evaluated : Expr.evaluateAll script verbosity fuel destination.indices machine = .ok indices machine)
    (selected : selectElement (.name destination.name) binding.value
      (indices.map (Token.mark .leftBracket, ·)) machine = .ok target machine) :
    destination.phrase.tree.evaluate script verbosity fuel machine =
      targetValue binding target machine := by
  have named : (Expr.named false destination.name).evaluate script verbosity fuel machine =
      .ok binding.value machine := by
    rw [Expr.evaluate, valueOf, bind_of_ok bound]
    rfl
  rw [Destination.phrase, Phrase.tree_elements]
  change (destination.indices.foldl Expr.index _).evaluate _ _ _ _ = _
  cases target with
  | element address slot => exact evaluate_elements quiet named evaluated selected
  | named =>
      have none : indices = [] := List.map_eq_nil_iff.mp (selected_nothing selected)
      subst none
      have last : destination.indices = [] :=
        List.length_eq_zero_iff.mp (Expr.evaluateAll_length evaluated).symm
      rw [last]
      exact named

/-! ## Both forms of an assignment -/

/-- An assignment and its expansion do the same if the indices make no calls and no arrays. -/
theorem perform_expanded {assignment : Assignment}
    (quiet : ∀ tree ∈ assignment.destination.indices, tree.CallFree False) :
    assignment.expanded.perform script verbosity fuel = assignment.perform script verbosity fuel := by
  obtain ⟨destination, change⟩ := assignment
  cases change with
  | replaced | increased | decreased => rfl
  | combined compound operand =>
      funext machine
      unfold Assignment.perform
      apply bind_congr_ok
      intro _ _ looked
      obtain rfl := (unchanged.bindingOf _).ok looked
      apply bind_congr_ok
      intro indices _ evaluated
      obtain rfl := (Expr.keeps_all unchanged fun tree member =>
        (quiet tree member).unchanging).ok evaluated
      apply bind_congr_ok
      intro binding _ bound
      obtain rfl := (unchanged.bindingOf _).ok bound
      by_cases constant : binding.constant = true
      · simp only [constant, if_true]
        rfl
      · simp only [constant, if_false, Bool.false_eq_true]
        apply bind_congr_ok
        intro target _ selected
        obtain rfl := (unchanged.selectElement _ _ _).ok selected
        have again := evaluate_destination quiet bound evaluated selected
        apply bind_congr_ok
        intro old machine read
        obtain rfl := (unchanged.targetValue _ _).ok read
        -- The operator finds the same operands in the same order.
        have applied : Change.apply script verbosity fuel old
            (.replaced (destination.phrase.joined compound.operator operand.grouped)) machine =
              Change.apply script verbosity fuel old (.combined compound operand) machine := by
          change (Expr.binary compound.operator destination.phrase.tree operand.tree).evaluate
            script verbosity fuel machine = _
          rw [Expr.evaluate, bind_of_ok (again.trans read)]
          rfl
        exact bind_of_same applied _

/-! ## Statements -/

theorem elsewhere_joined {outcome twin : Option (Outcome Signal)} {ended : Option (Outcome Unit)}
    (first : Option.Rel (Coupling.elsewhere.Outcomes fun signal _ => signal = .normal) outcome ended)
    (second : Option.Rel (Coupling.elsewhere.Outcomes fun signal _ => signal = .normal) twin ended) :
    Option.Rel (Coupling.elsewhere.Outcomes Eq) outcome twin := by
  cases first with
  | none => cases second; exact .none
  | some outcomes => cases second with
    | some others =>
        apply Option.Rel.some
        cases outcomes with
        | early allowed => exact allowed.elim
        | succeeded normal apart => cases others with
          | early allowed => exact allowed.elim
          | succeeded same beside =>
              obtain ⟨_, _, rfl⟩ := apart
              obtain ⟨_, _, rfl⟩ := beside
              exact .succeeded (normal.trans same.symm) ⟨_, _, rfl⟩
        | failed alike apart => cases others with
          | early allowed => exact allowed.elim
          | failed near beside =>
              obtain ⟨_, _, rfl⟩ := apart
              obtain ⟨_, _, rfl⟩ := beside
              exact .failed (alike.trans near.symm) ⟨_, _, rfl⟩

/-- A compound assignment is its expansion. If `t op= e` and `t = t op (e)`, or a step and the compound
assignment with one, stand at two places of a script, each before a token that does not continue it, then
from every machine both end alike: normally, or with a failure of the same cause, or never. The machines
that they leave agree in everything but where they stand and what was traced, so in the scopes, the heap
with its element types, the functions and the output. The indices of the target must make no calls and no
arrays. -/
theorem assignment_is_its_expansion (script : Script) (verbosity : Nat) (machine : Machine)
    {assignment : Assignment} (written : assignment.IsWritten)
    (quiet : ∀ tree ∈ assignment.destination.indices, tree.CallFree False) {first last other behind : Nat}
    (shown : script.Shows first last assignment.tokens)
    (ends : assignment.change.EndsBefore (script.kindAt last))
    (expanded : script.Shows other behind assignment.expanded.tokens)
    (stops : assignment.expanded.change.EndsBefore (script.kindAt behind)) :
    ∃ outcome twin, Settles (statement script verbosity) { machine with cursor := first } outcome ∧
      Settles (statement script verbosity) { machine with cursor := other } twin ∧
        Option.Rel (Coupling.elsewhere.Outcomes Eq) outcome twin := by
  obtain ⟨outcome, ended, settles, performed, related⟩ :=
    statement_assigns verbosity written shown ends machine
  obtain ⟨twin, same, settlesToo, performedToo, relatedToo⟩ :=
    statement_assigns verbosity written.expanded expanded stops machine
  have performs : assignment.expanded.perform script verbosity = assignment.perform script verbosity :=
    funext fun fuel => perform_expanded quiet
  rw [performs] at performedToo
  obtain rfl := performed.unique performedToo
  exact ⟨outcome, twin, settles, settlesToo, elsewhere_joined related relatedToo⟩

/-- A product with the result of a call that puts another array in the place of the target's. -/
theorem assignment_is_its_expansion_beside_call :
    let script := Script.ofSource ("func f(): number \x7b x[0] = [5, 6] return 3 \x7d " ++
      "x: number[][] = [[1, 2]] i: number = 0 x[i][1] *= f() x[i][1] = x[i][1] * (f())").toList
    let place := Expr.named false "i"
    let target : Destination := ⟨"x", [place.phrase, (Expr.number "1").phrase]⟩
    let operand := (Expr.call "f" []).phrase
    let assignment : Assignment := ⟨target, .combined ⟨.mul, .asteriskEqual, rfl⟩ operand⟩
    let machine := (Run.ofScript script 0 50).machine
    (Run.ofScript script 0 50).failure = none ∧
      script.Shows 36 47 assignment.tokens ∧ script.Shows 47 68 assignment.expanded.tokens ∧
        ∃ outcome twin, Settles (statement script 0) { machine with cursor := 36 } outcome ∧
          Settles (statement script 0) { machine with cursor := 47 } twin ∧
            Option.Rel (Coupling.elsewhere.Outcomes Eq) outcome twin := by
  intro script place target operand assignment machine
  have standing (tree : Expr) : Written 0 tree.phrase :=
    tree.written.loosened tree.level_le (Nat.zero_le _)
  have written : assignment.IsWritten := by
    refine ⟨?_, ?_⟩
    · intro phrase member
      obtain rfl | rfl : phrase = place.phrase ∨ phrase = (Expr.number "1").phrase := by
        simpa [target, assignment] using member
      · exact standing place
      · exact standing _
    · rintro _ ⟨⟩
      exact standing _
  have quiet : ∀ tree ∈ assignment.destination.indices, tree.CallFree False := by
    intro tree member
    obtain rfl | rfl : tree = place ∨ tree = Expr.number "1" := by
      simpa [Destination.indices, target, assignment, Expr.phrase] using member
    · exact .named false "i"
    · exact .number "1"
  obtain ⟨succeeded, shown, expanded, ended, behind⟩ : (Run.ofScript script 0 50).failure = none ∧
      script.Shows 36 47 assignment.tokens ∧ script.Shows 47 68 assignment.expanded.tokens ∧
        operand.EndsBefore (script.kindAt 47) ∧
          (target.phrase.joined .mul operand.grouped).EndsBefore (script.kindAt 68) := by decide +kernel
  have ends : assignment.change.EndsBefore (script.kindAt 47) := by
    rintro _ ⟨⟩
    exact ended
  have stops : assignment.expanded.change.EndsBefore (script.kindAt 68) := by
    rintro _ ⟨⟩
    exact behind
  exact ⟨succeeded, shown, expanded,
    assignment_is_its_expansion script 0 machine written quiet shown ends expanded stops⟩

end Exec

end Onepass
