/-! # Lines of a text

Only a line feed ends a line, so a text always has one line more than it has line feeds. A line is
shown without the carriage returns at its end. Files that end their lines in another way are brought
to line feeds before anything else looks at them.
-/

set_option autoImplicit false

namespace Onepass.Text

/-- The lines of a text: the parts between its line feeds. There is always at least one. -/
def splitLines : List Char → List (List Char)
  | [] => [[]]
  | '\n' :: rest => [] :: splitLines rest
  | char :: rest =>
    match splitLines rest with
    | [] => [[char]]
    | line :: lines => (char :: line) :: lines

/-- A line without the carriage returns at its end. -/
def withoutReturns (line : List Char) : List Char :=
  (line.reverse.dropWhile (· == '\r')).reverse

/-- The lines of a text as diagnostics show them. -/
def shownLines (text : String) : List String :=
  (splitLines text.toList).map fun line => String.ofList (withoutReturns line)

/-- The line with the given number, counted from one; the empty text where there is no such line. -/
def shownLine (text : String) (number : Nat) : String :=
  match number with
  | 0 => ""
  | index + 1 => (shownLines text).getD index ""

/-- Brings every line ending to a single line feed: a carriage return counts as one, together with
the line feed that may follow it. -/
def unifyNewlines : List Char → List Char
  | [] => []
  | '\r' :: '\n' :: rest => '\n' :: unifyNewlines rest
  | '\r' :: rest => '\n' :: unifyNewlines rest
  | char :: rest => char :: unifyNewlines rest

end Onepass.Text
