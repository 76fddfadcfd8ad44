import Onepass.Diagnostic.Cause
import Onepass.Token.Basic

/-! # Diagnostics and how they are reported

A diagnostic is a cause with the position in the script to which it belongs. A report names the
file, the position and the message on one line, shows the line of the script below, and marks the
column with a caret.
-/

set_option autoImplicit false

namespace Onepass

/-- A cause and where it arose. -/
structure Diagnostic where
  cause : Cause
  position : Position
  deriving DecidableEq, Repr

/-- The name of a script that does not come from a file. -/
def unnamedScript : String := "<input>"

/-- A message with everything that is shown along with it. -/
structure Report where
  message : String
  position : Position
  sourceLine : Option String
  file : Option String
  deriving DecidableEq, Repr

namespace Report

/-- The place, the message, the line of the script and the caret, on three lines. -/
def text (report : Report) : String :=
  report.file.getD unnamedScript ++ ":" ++ toString report.position.line ++ ":" ++
    toString report.position.column ++ ": error: " ++ report.message ++ "\n" ++
    report.sourceLine.getD "" ++ "\n" ++
    String.ofList (List.replicate (report.position.column - 1) ' ') ++ "^"

end Report

/-- The report of a diagnostic, with a line of the script and a file if they are known. -/
def Diagnostic.report (diagnostic : Diagnostic) (sourceLine file : Option String) : Report :=
  ⟨diagnostic.cause.message, diagnostic.position, sourceLine, file⟩

end Onepass
