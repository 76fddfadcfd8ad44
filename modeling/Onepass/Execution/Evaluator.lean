import Onepass.Execution.Statement

/-! # The evaluator

Expressions hold calls, calls execute statements, and statements hold expressions; loops need not
end at all. So the evaluator takes fuel: each level of nesting gives the constructs inside it one
unit less, and with no fuel left the execution is exhausted. Any other outcome stays the same with
more fuel.
-/

set_option autoImplicit false

namespace Onepass.Exec

variable (script : Script) (verbosity : Nat)

mutual

/-- Evaluates an expression. -/
def expression : Nat → Machine → EStateM.Result Failure Machine Value
  | 0, machine => .error .exhausted machine
  | fuel + 1, machine =>
    let evaluator : Evaluator := ⟨expression fuel, statement fuel⟩
    disjunction script evaluator (call script evaluator fuel) fuel machine

/-- Executes a statement. -/
def statement : Nat → Machine → EStateM.Result Failure Machine Signal
  | 0, machine => .error .exhausted machine
  | fuel + 1, machine => dispatch script verbosity ⟨expression fuel, statement fuel⟩ fuel machine

end

/-- The evaluator with the given fuel. -/
def evaluator (fuel : Nat) : Evaluator :=
  ⟨expression script verbosity fuel, statement script verbosity fuel⟩

/-- Executes statements until the end of the script. -/
def program (evaluator : Evaluator) : Nat → Exec Unit
  | 0 => throw .exhausted
  | rounds + 1 => do
    if (← currentKind script) = .endOfInput then
      return ()
    else
      let _ ← evaluator.statement
      program evaluator rounds

end Onepass.Exec
