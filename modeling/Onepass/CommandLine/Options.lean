import Onepass.Text.Blank

/-! # Options of the command line

Options may stand anywhere before a lone `--`. Short options may be joined after one hyphen. What is
no known option counts as the name of a file: an unknown long option as a whole, unknown short
options with a hyphen before them. The setting of the environment asks for strict reading just as
the option does.
-/

set_option autoImplicit false

namespace Onepass.CommandLine

/-- What the command line asks for. -/
structure Options where
  /-- How many times a trace was asked for. -/
  verbosity : Nat
  strict : Bool
  /-- Whether to dump the tokens before the run. -/
  tokens : Bool
  /-- Whether to print statistics after the run. -/
  statistics : Bool
  /-- Whether to drop colour codes from everything written. -/
  plain : Bool
  /-- The names of files. -/
  files : List String
  deriving DecidableEq, Repr

namespace Options

/-- Nothing asked for. -/
def none : Options :=
  ⟨0, false, false, false, false, []⟩

/-- Adds the name of a file after those already given. -/
def addFile (options : Options) (file : String) : Options :=
  { options with files := options.files ++ [file] }

/-- Adds a long option, if it is known. -/
def addLong? (options : Options) : String → Option Options
  | "--verbose" => some { options with verbosity := options.verbosity + 1 }
  | "--strict" => some { options with strict := true }
  | "--tokens" => some { options with tokens := true }
  | "--stats" => some { options with statistics := true }
  | "--plain" => some { options with plain := true }
  | _ => Option.none

/-- Adds a short option, if it is known. -/
def addShort? (options : Options) : Char → Option Options
  | 'v' => some { options with verbosity := options.verbosity + 1 }
  | 'p' => some { options with plain := true }
  | _ => Option.none

/-- Adds joined short options. Those that are unknown are collected and count as the name of a
file. -/
def addJoined (options : Options) (unknown : List Char) : List Char → Options
  | [] =>
    if unknown.isEmpty then options else options.addFile (String.ofList ('-' :: unknown))
  | char :: rest =>
    match options.addShort? char with
    | some extended => extended.addJoined unknown rest
    | Option.none => options.addJoined (unknown ++ [char]) rest

/-- Adds one argument that is not the end of the options. -/
def addArgument (options : Options) (argument : String) : Options :=
  match argument.toList with
  | '-' :: '-' :: _ :: _ => (options.addLong? argument).getD (options.addFile argument)
  | '-' :: char :: rest => options.addJoined [] (char :: rest)
  | _ => options.addFile argument

/-- Adds arguments from left to right; after a lone `--` all of them are names of files. -/
def addArguments (options : Options) : List String → Options
  | [] => options
  | "--" :: rest => { options with files := options.files ++ rest }
  | argument :: rest => (options.addArgument argument).addArguments rest

/-- The words by which the environment asks for strict reading. -/
def strictWords : List String :=
  ["1", "true", "t", "yes", "y", "on"]

/-- Whether the setting of the environment asks for strict reading. Blanks around the word and the
case of its letters do not matter. -/
def asksForStrict (setting : String) : Bool :=
  String.ofList ((Text.trim setting.toList).map Char.toLower) ∈ strictWords

/-- Reads the arguments, together with the setting of the environment. -/
def read (arguments : List String) (setting : Option String) : Options :=
  let options := none.addArguments arguments
  { options with strict := options.strict || (setting.map asksForStrict).getD false }

end Options

end Onepass.CommandLine
