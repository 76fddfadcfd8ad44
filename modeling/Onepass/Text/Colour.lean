/-! # Terminal colour codes

A colour code is the escape character, an opening bracket, any number of digits and semicolons, and
the letter `m`. Plain output drops every code that a single left-to-right pass finds; text that
becomes a code only because another one was dropped in front of it stays.
-/

set_option autoImplicit false

namespace Onepass.Text

/-- The escape character, with which every colour code begins. -/
def escape : Char := '\x1b'

/-- Whether the character may stand between the bracket and the final letter of a colour code. -/
def isColourParameter (char : Char) : Bool :=
  char.isDigit || char == ';'

/-- What follows the colour code at the beginning of the text, if one stands there. -/
def afterColourCode? : List Char → Option (List Char)
  | '\x1b' :: '[' :: rest =>
    match rest.dropWhile isColourParameter with
    | 'm' :: tail => some tail
    | _ => none
  | _ => none

theorem length_lt_of_afterColourCode? {text tail : List Char}
    (found : afterColourCode? text = some tail) : tail.length < text.length := by
  unfold afterColourCode? at found
  split at found
  · rename_i rest
    split at found
    · rename_i tail' dropped
      cases found
      have bound := (List.dropWhile_sublist isColourParameter (l := rest)).length_le
      simp only [dropped, List.length_cons] at bound ⊢
      omega
    · cases found
  · cases found

/-- The characters that remain of a text once its colour codes are dropped. -/
def withoutColourChars (text : List Char) : List Char :=
  match _found : afterColourCode? text with
  | some tail => withoutColourChars tail
  | none =>
    match text with
    | [] => []
    | char :: rest => char :: withoutColourChars rest
termination_by text.length
decreasing_by
  · exact length_lt_of_afterColourCode? _found
  · simp

@[simp] theorem withoutColourChars_nil : withoutColourChars [] = [] := by
  rw [withoutColourChars]
  rfl

theorem withoutColourChars_of_code {text tail : List Char}
    (found : afterColourCode? text = some tail) :
    withoutColourChars text = withoutColourChars tail := by
  rw [withoutColourChars]
  split
  case _ other same =>
    rw [found] at same
    rw [Option.some.inj same]
  case _ none =>
    rw [found] at none
    cases none

theorem withoutColourChars_cons {char : Char} {rest : List Char}
    (none : afterColourCode? (char :: rest) = none) :
    withoutColourChars (char :: rest) = char :: withoutColourChars rest := by
  rw [withoutColourChars]
  split
  case _ found =>
    rw [none] at found
    cases found
  case _ => rfl

/-- The text with its colour codes dropped. -/
def withoutColour (text : String) : String :=
  String.ofList (withoutColourChars text.toList)

/-- The text in the colour with the given parameters, with the default colour restored after it. -/
def coloured (parameters text : String) : String :=
  "\x1b[" ++ parameters ++ "m" ++ text ++ "\x1b[0m"

end Onepass.Text
