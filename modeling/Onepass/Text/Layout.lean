/-! # Columns and groups of digits

Fixed-width columns of dumps and traces, and counts with their digits in groups of three.
-/

set_option autoImplicit false

namespace Onepass.Text

/-- The text moved to the right end of a column; a text that is too wide is kept whole. -/
def alignRight (width : Nat) (text : String) : String :=
  String.ofList (List.replicate (width - text.length) ' ') ++ text

/-- The text at the left end of a column; a text that is too wide is kept whole. -/
def alignLeft (width : Nat) (text : String) : String :=
  text ++ String.ofList (List.replicate (width - text.length) ' ')

/-- The text repeated. -/
def repeated (count : Nat) (text : String) : String :=
  String.join (List.replicate count text)

/-- Digits given from the last to the first, with a comma after each third one that has a
successor. -/
def groupReversed : List Char → List Char
  | first :: second :: third :: next :: rest =>
    first :: second :: third :: ',' :: groupReversed (next :: rest)
  | digits => digits

/-- A count in decimal with a comma between groups of three digits. -/
def grouped (count : Nat) : String :=
  String.ofList (groupReversed (Nat.toDigits 10 count).reverse).reverse

end Onepass.Text
