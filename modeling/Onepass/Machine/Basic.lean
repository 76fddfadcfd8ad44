import Onepass.Diagnostic.Report
import Onepass.Machine.Function
import Onepass.Machine.Scope
import Onepass.Value.Operator

/-! # The state of an execution

A machine holds everything that an execution changes: where it stands in the script, the scopes, the
functions declared so far and those being called, the arrays, and what was written. An action on the
machine gives a result or fails, and a failed action leaves the machine as the failure found it.
-/

set_option autoImplicit false

namespace Onepass

/-- The state of an execution. -/
structure Machine where
  /-- The place of the next token. -/
  cursor : Nat
  scopes : Scopes
  /-- The functions declared so far. -/
  functions : FunctionTable
  /-- The functions being called, the innermost call first. -/
  frames : List Function
  /-- How many loops of the running function are active. -/
  loopDepth : Nat
  /-- The value that the last `return` gave. It is null at the beginning of a call. -/
  returned : Value
  heap : Heap
  /-- The texts written so far, one for each print statement. -/
  output : Array String
  /-- The lines of the trace so far. -/
  trace : Array String
  /-- How many statements were begun. -/
  steps : Nat
  deriving DecidableEq, Repr

/-- The machine before anything was executed. -/
def Machine.initial : Machine where
  cursor := 0
  scopes := .initial
  functions := []
  frames := []
  loopDepth := 0
  returned := .null
  heap := .empty
  output := #[]
  trace := #[]
  steps := 0

/-- The type that the running function returns, inside a call. -/
def Machine.running (machine : Machine) : Option DeclaredType :=
  machine.frames.head?.map Function.returnType

/-- Everything written so far. -/
def Machine.written (machine : Machine) : String :=
  String.join machine.output.toList

/-- Why an execution ends early. -/
inductive Failure where
  /-- The program is wrong. -/
  | diagnostic (diagnostic : Diagnostic)
  /-- The next value of a counting loop does not exist. -/
  | progression (fault : Decimal.Fault)
  /-- The machine that runs the program has no room for something. -/
  | limit (limit : Limit)
  /-- The text of an array that holds itself is needed, or a comparison of such arrays. -/
  | endless
  /-- The execution did not come to an end within the given bound. -/
  | exhausted
  deriving DecidableEq, Repr

/-- An action on the machine. A failure keeps the changes made before it. -/
abbrev Exec := EStateM Failure Machine

namespace Exec

/-- Fails because of the program. -/
def refuse {α : Type} (cause : Cause) (position : Position) : Exec α :=
  throw (.diagnostic ⟨cause, position⟩)

/-- The result of a look at the script. -/
def ofDiagnosed {α : Type} : Except Diagnostic α → Exec α
  | .ok result => pure result
  | .error diagnostic => throw (.diagnostic diagnostic)

/-- The result of an operation on values; a fault belongs to the given position. -/
def located {α : Type} (position : Position) : Except Fault α → Exec α
  | .ok result => pure result
  | .error (.cause cause) => refuse cause position
  | .error (.number fault) => refuse (.numberOutOfRange fault) position
  | .error (.limit limit) => throw (.limit limit)
  | .error .endless => throw .endless

/-- Runs an action and tidies up after it, whether it succeeds or fails. -/
def ensuring {α : Type} (tidy : Machine → Machine) (action : Exec α) : Exec α := fun machine =>
  match action machine with
  | .ok result final => .ok result (tidy final)
  | .error failure final => .error failure (tidy final)

end Exec

end Onepass
