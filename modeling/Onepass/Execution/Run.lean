import Onepass.Execution.Evaluator
import Onepass.Text.Lines

/-! # Running whole programs

A run reads a source text, executes it to its end or to the first failure, and keeps the machine as
it was then. A script that cannot even be read leaves the machine untouched.
-/

set_option autoImplicit false

namespace Onepass

/-- The fuel that programs are run with. No program uses it up in practice. -/
def ampleFuel : Nat := 1000000000000000000

/-- How a run ended. -/
structure Run where
  machine : Machine
  /-- Why the run ended early, if it did. -/
  failure : Option Failure

namespace Run

/-- Executes a script from its beginning. -/
def ofScript (script : Script) (verbosity fuel : Nat) : Run :=
  match Exec.program script (Exec.evaluator script verbosity fuel) fuel .initial with
  | .ok _ machine => ⟨machine, none⟩
  | .error failure machine => ⟨machine, some failure⟩

/-- Reads a source text and executes it. -/
def ofSource (strict : Bool) (source : String) (verbosity fuel : Nat) : Run :=
  match Script.read strict source with
  | .ok script => ofScript script verbosity fuel
  | .error diagnostic => ⟨.initial, some (.diagnostic diagnostic)⟩

/-- The global variables and their values. -/
def globals (run : Run) : List (String × Value) :=
  run.machine.scopes.globals.bindings.map fun entry => (entry.1, entry.2.value)

end Run

/-- The report of a diagnostic about a source text, with the line to which it belongs. -/
def Diagnostic.reportIn (diagnostic : Diagnostic) (source : String)
    (file : Option String) : Report :=
  diagnostic.report (some (Text.shownLine source diagnostic.position.line)) file

/-- The report of the diagnostic that a run of a source text ended with, if it did. A source text that
comes from no file has a name of its own. -/
def Run.report? (run : Run) (source : String) (file : Option String) : Option Report :=
  match run.failure with
  | some (.diagnostic diagnostic) =>
    some (diagnostic.reportIn source (some (file.getD unnamedScript)))
  | _ => none

end Onepass
