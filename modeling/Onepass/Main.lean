import Onepass.CommandLine.Invocation

/-! # The program

Reads the arguments, the environment and the file, performs the invocation and writes its result.
-/

set_option autoImplicit false

namespace Onepass.CommandLine

/-- The content of a file. -/
def readContent (path : Path) : IO (Except ReadError (List UInt8)) := do
  try
    let bytes ← IO.FS.readBinFile path.text
    return .ok bytes.toList
  catch
    | .noFileOrDirectory .. => return .error .notFound
    | .inappropriateType .. => return .error .isDirectory
    | error => throw error

/-- Why an invocation was aborted, for people. -/
def Abortion.message : Abortion → String
  | .undecodable failure => failure.message
  | .run (.progression fault) => "a value of a range is out of range: " ++ fault.word
  | .run (.limit .memory) => "a number has more digits than there is memory for"
  | .run (.limit .digits) => "an integer has more digits than are written out"
  | .run .endless => "an array that holds itself has no end"
  | .run .exhausted => "the execution does not end"
  | .run (.diagnostic diagnostic) => diagnostic.cause.message

/-- Writes texts one after the other. -/
def writeAll (stream : IO.FS.Stream) (texts : List String) : IO Unit := do
  for text in texts do
    stream.putStr text
  stream.flush

/-- The code with which the program ends. An abortion is reported like a crash. -/
def finish (result : Result) : IO UInt32 := do
  match result.ending with
  | .ok code => return code.toUInt32
  | .error abortion =>
    (← IO.getStderr).putStrLn abortion.message
    return 1

end Onepass.CommandLine

open Onepass CommandLine in
/-- Runs the command. -/
def main (arguments : List String) : IO UInt32 := do
  let options := Options.read arguments (← IO.getEnv "EZY_STRICT")
  let stdout ← IO.getStdout
  let stderr ← IO.getStderr
  match inputFile? options with
  | none =>
    let result := refusal options
    writeAll stdout result.stdout
    writeAll stderr result.stderr
    finish result
  | some path =>
    let started ← IO.monoMsNow
    let outcome := runFile options path (← readContent path) ampleFuel
    writeAll stdout outcome.1.stdout
    writeAll stderr outcome.1.stderr
    let finished ← IO.monoMsNow
    writeAll stdout (statistics options (finished - started) outcome)
    finish outcome.1
