/-! # Names of files

The name of a file is brought to a normal form before it is used: single dots and empty parts
between slashes are dropped, also at the end, and two slashes at the very beginning are kept apart
from one. The suffix is what the last part has from its last point on, if something stands before
and after that point.
-/

set_option autoImplicit false

namespace Onepass.CommandLine

/-- A path in normal form. -/
structure Path where
  /-- The slashes at the beginning. -/
  root : String
  parts : List String
  deriving DecidableEq, Repr

namespace Path

/-- The parts between slashes. -/
def splitSlashes : List Char → List (List Char)
  | [] => [[]]
  | '/' :: rest => [] :: splitSlashes rest
  | char :: rest =>
    match splitSlashes rest with
    | [] => [[char]]
    | part :: parts => (char :: part) :: parts

/-- The slashes at the beginning that count: none, one, or exactly two. -/
def rootOf : List Char → String
  | '/' :: '/' :: '/' :: _ => "/"
  | '/' :: '/' :: _ => "//"
  | '/' :: _ => "/"
  | _ => ""

/-- The normal form of a name. -/
def ofName (name : String) : Path :=
  let parts := (splitSlashes name.toList).map String.ofList
  ⟨rootOf name.toList, parts.filter fun part => part != "" && part != "."⟩

/-- The name in normal form; the empty path is a single dot. -/
def text (path : Path) : String :=
  if path.root == "" && path.parts.isEmpty then "."
  else path.root ++ "/".intercalate path.parts

/-- The suffix of the last part. -/
def suffix (path : Path) : String :=
  let reversed := (path.parts.getLastD "").toList.reverse
  let extension := reversed.takeWhile (· != '.')
  match reversed.drop extension.length with
  | '.' :: _ :: _ =>
    if extension.isEmpty then "" else String.ofList ('.' :: extension.reverse)
  | _ => ""

end Path

end Onepass.CommandLine
