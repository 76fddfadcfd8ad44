import Onepass.Proofs.Outcome

/-! # Counting loops that step in another way

The next value of a counting loop is formed when it is asked for, and may not exist. Here the way in
which loops step is a parameter, so that an execution can be compared with one that reports such a
failure differently. Stepping as the program does gives its own execution.
-/

set_option autoImplicit false

namespace Onepass

/-- How a loop whose variable is named by a token comes to its next value. -/
abbrev Stepping := Token → Iteration → Exec (Option (Value × Iteration))

namespace Exec

variable (script : Script) (step : Stepping)

/-- Executes the iterations of a loop over values that are fixed already. -/
def traverseBy (evaluator : Evaluator) (name : Token) (type : DeclaredType) (bodyStart : Nat) :
    Nat → Iteration → Option Nat → Exec Signal
  | 0, _, _ => throw .exhausted
  | fuel + 1, iteration, known => do
    match ← step name iteration with
    | none => leaveLoop script bodyStart known
    | some (value, rest) =>
      if !(← conforms value type) then
        refuse (.loopMismatch type (← describe value)) name.position
      moveTo bodyStart
      let signal ←
        iterate script evaluator ⟨[(name.word, ⟨value, some type, false⟩)]⟩ fuel
      let known ← noteEnd known signal
      match signal with
      | .breaking => leaveLoop script bodyStart known
      | .returning => return .returning
      | _ => traverseBy evaluator name type bodyStart fuel rest known

/-- Executes a loop over a range, an array or a text. -/
def traversalBy (evaluator : Evaluator) (fuel : Nat) : Exec Signal := do
  let _ ← expect script (.keyword .forWord)
  expectSymbol script .leftParen
  let name ← expect script .identifier
  expectSymbol script .colon
  let type ← readType script
  let _ ← expect script (.keyword .inWord)
  let values ← iteration script evaluator.expression
  expectSymbol script .rightParen
  traverseBy script step evaluator name type (← get).cursor fuel values none

/-- Executes one statement. -/
def dispatchBy (verbosity : Nat) (evaluator : Evaluator) (fuel : Nat) : Exec Signal :=
  fun machine =>
    if script.kindAt machine.cursor = .keyword .forWord then
      traversalBy script step evaluator fuel (observed script verbosity machine)
    else dispatch script verbosity evaluator fuel machine

/-- The evaluator whose loops step in the given way. -/
def steppedBy (verbosity : Nat) : Nat → Evaluator
  | 0 => ⟨throw .exhausted, throw .exhausted⟩
  | fuel + 1 =>
    let evaluator := steppedBy verbosity fuel
    { expression := disjunction script evaluator (call script evaluator fuel) fuel
      statement := dispatchBy script step verbosity evaluator fuel }

/-! ## Stepping as the program does -/

variable {script}

theorem traverseBy_nextOf (evaluator : Evaluator) (name : Token) (type : DeclaredType)
    (bodyStart fuel : Nat) (iteration : Iteration) (known : Option Nat) :
    traverseBy script (fun _ => nextOf) evaluator name type bodyStart fuel iteration known =
      traverse script evaluator name type bodyStart fuel iteration known := by
  induction fuel generalizing iteration known with
  | zero => rfl
  | succ fuel ih =>
      have others : traverseBy script (fun _ => nextOf) evaluator name type bodyStart fuel =
          traverse script evaluator name type bodyStart fuel := by
        funext iteration known
        exact ih iteration known
      unfold traverseBy traverse
      generalize traverseBy script (fun _ => nextOf) evaluator name type bodyStart fuel = repeated
        at others ⊢
      subst others
      rfl

theorem dispatchBy_nextOf (verbosity : Nat) (evaluator : Evaluator) (fuel : Nat) :
    dispatchBy script (fun _ => nextOf) verbosity evaluator fuel =
      dispatch script verbosity evaluator fuel := by
  funext machine
  unfold dispatchBy
  split
  case _ loops =>
    rw [dispatch_eq, loops]
    unfold traversalBy
    simp only [traverseBy_nextOf]
    rfl
  case _ => rfl

theorem steppedBy_nextOf (verbosity fuel : Nat) :
    steppedBy script (fun _ => nextOf) verbosity fuel = evaluator script verbosity fuel := by
  induction fuel with
  | zero => rfl
  | succ fuel ih =>
      unfold steppedBy
      simp only [ih, dispatchBy_nextOf]
      rfl

end Exec

end Onepass
