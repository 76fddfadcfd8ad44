import Onepass.CommandLine.Options
import Onepass.CommandLine.Path
import Onepass.Execution.Run
import Onepass.Text.Utf8

/-! # One invocation of the command line

The command line runs exactly one file with the right extension. Everything it writes, and the code
with which it ends, follows from the arguments, a setting of the environment, the bytes of the file
and, for the statistics, the time that passed.
-/

set_option autoImplicit false

namespace Onepass.CommandLine

/-- Why a file cannot be read. -/
inductive ReadError where
  | notFound
  | isDirectory
  | notDirectory
  deriving DecidableEq, Repr

/-- The number and the wording of an error of the system. -/
def ReadError.description : ReadError → String
  | .notFound => "[Errno 2] No such file or directory"
  | .notDirectory => "[Errno 20] Not a directory"
  | .isDirectory => "[Errno 21] Is a directory"

/-- The line that says how to use the command. -/
def usage : String := "Usage: ezylang [OPTIONS] <source file>"

/-- The extension that the file has to have. -/
def extension : String := ".ezy"

/-- What the command does not handle: it ends an invocation without an exit code of its own. -/
inductive Abortion where
  /-- The file is not UTF-8. -/
  | undecodable (failure : Text.Utf8.Failure)
  /-- The run failed for a reason that is no diagnostic. -/
  | run (failure : Failure)
  deriving DecidableEq, Repr

/-- What an invocation wrote, text by text, and how it ended. -/
structure Result where
  stdout : List String
  stderr : List String
  ending : Except Abortion Nat

/-- The text without colour codes, if plain output is asked for. -/
def Options.shown (options : Options) (text : String) : String :=
  if options.plain then Text.withoutColour text else text

/-- A line as it is written. -/
def Options.line (options : Options) (text : String) : String :=
  options.shown text ++ "\n"

/-- An amount of milliseconds as seconds with three places. -/
def secondsText (milliseconds : Nat) : String :=
  toString (milliseconds / 1000) ++ "." ++
    String.ofList ((Nat.toDigits 10 (1000 + milliseconds % 1000)).drop 1) ++ "s"

/-- The statistics: how many statements were begun, and how much time has passed. -/
def statisticsLines (steps milliseconds : Nat) : List String :=
  ["\n\x1b[97m" ++ Text.coloured "48;5;30" " STATISTICS. ",
    "step\t" ++ Text.coloured "97" (Text.grouped steps),
    "time\t" ++ Text.coloured "97" (secondsText milliseconds)]

/-- The lines of the token dump. -/
def dumpLines (script : Script) : List String :=
  script.allTokens.map Token.dumpLine

/-- Executes a source text that was read from a file, without the statistics. Asking for the tokens
reads the text once more, before the run; a failure of that reading names no file. -/
def runSource (options : Options) (file source : String) (fuel : Nat) : Result × Nat :=
  match options.tokens, Script.read options.strict source with
  | true, .error diagnostic =>
    (⟨[], [options.line (diagnostic.report none none).text], .ok 1⟩, 0)
  | dumped, read =>
    let dump :=
      match dumped, read with
      | true, .ok script => (dumpLines script).map options.line
      | _, _ => []
    let run := Run.ofSource options.strict source options.verbosity fuel
    let stdout := dump ++ run.machine.output.toList.map options.shown
    let trace := run.machine.trace.toList.map options.line
    let result : Result :=
      match run.failure with
      | none => ⟨stdout, trace, .ok 0⟩
      | some (.diagnostic diagnostic) =>
        let report := (diagnostic.reportIn source (some file)).text
        ⟨stdout, trace ++ [options.line report], .ok 1⟩
      | some failure => ⟨stdout, trace, .error (.run failure)⟩
    (result, run.machine.steps)

/-- Executes a file with the given content. -/
def runFile (options : Options) (path : Path) (content : Except ReadError (List UInt8))
    (fuel : Nat) : Result × Nat :=
  match content with
  | .error error =>
    let message := error.description ++ ": " ++ Text.quoted path.text
    (⟨[], [options.line message], .ok 1⟩, 0)
  | .ok bytes =>
    match Text.Utf8.decode bytes with
    | .error failure => (⟨[], [], .error (.undecodable failure)⟩, 0)
    | .ok chars =>
      runSource options path.text (String.ofList (Text.unifyNewlines chars)) fuel

/-- What is written after the output of a run: the statistics, if they are asked for and the run was
brought to its end. -/
def statistics (options : Options) (milliseconds : Nat) (outcome : Result × Nat) : List String :=
  match options.statistics, outcome.1.ending with
  | true, .ok _ => (statisticsLines outcome.2 milliseconds).map options.line
  | _, _ => []

/-- The result of a run with the statistics after its output. -/
def withStatistics (options : Options) (milliseconds : Nat) (outcome : Result × Nat) : Result :=
  { outcome.1 with stdout := outcome.1.stdout ++ statistics options milliseconds outcome }

/-- The file that an invocation reads: the only one given, if it has the right extension. -/
def inputFile? (options : Options) : Option Path :=
  match options.files with
  | [file] =>
    let path := Path.ofName file
    if path.suffix == extension then some path else none
  | _ => none

/-- What an invocation without a file to read writes. -/
def refusal (options : Options) : Result :=
  match options.files with
  | [_] => ⟨[], ["Invalid file extension: Must be '" ++ extension ++ "'\n"], .ok 1⟩
  | _ => ⟨[usage ++ "\n"], [], .ok 1⟩

/-- Performs an invocation. The content of the file is asked for by its name in normal form. -/
def invoke (options : Options) (content : Path → Except ReadError (List UInt8))
    (milliseconds fuel : Nat) : Result :=
  match inputFile? options with
  | some path => withStatistics options milliseconds (runFile options path (content path) fuel)
  | none => refusal options

end Onepass.CommandLine
