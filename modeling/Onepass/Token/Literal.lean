import Onepass.Token.Basic
import Onepass.Text.Blank

/-! # Inside quoted literals

The characters between the quotes of a literal are read one item at a time: a character, possibly
escaped, or a reference to a variable. Consecutive characters make up one piece of text, so a
literal becomes pieces of text with the references between them. Each piece of text stands where the
literal begins, and each reference where its name does.

A reference ends at its closing brace or at the quote of the literal, whichever comes first; a
backslash means nothing inside it. What follows such a quote is not read.
-/

set_option autoImplicit false

namespace Onepass.Literal

open Text (trim)

/-- The character that a backslash and the given character stand for. Characters without a meaning
of their own stand for themselves. -/
def unescaped (char : Char) : Char :=
  if char == 'n' then '\n'
  else if char == 'r' then '\r'
  else if char == 't' then '\t'
  else if char == 'b' then '\x08'
  else if char == 'f' then '\x0c'
  else char

/-- One thing read inside a literal. -/
inductive Item where
  /-- A character of the text that the literal denotes. -/
  | char (value : Char)
  /-- A reference: the name with its blanks trimmed, and where the text between the braces
  begins. -/
  | reference (name : List Char) (position : Position)
  deriving DecidableEq, Repr

/-- The text between the opening brace of a reference and what ends it. -/
def nameRun (quote : Char) (text : List Char) : List Char :=
  text.takeWhile fun char => char != '\x7d' && char != quote

/-- What follows the text of a reference: a closing brace is passed over, a quote is not. -/
def afterName (quote : Char) (text : List Char) : List Char :=
  match text.dropWhile fun char => char != '\x7d' && char != quote with
  | '\x7d' :: rest => rest
  | rest => rest

theorem length_afterName_le (quote : Char) (text : List Char) :
    (afterName quote text).length ≤ text.length := by
  have bound :=
    (List.dropWhile_sublist (fun char => char != '\x7d' && char != quote) (l := text)).length_le
  unfold afterName
  split
  · rename_i rest dropped
    rw [dropped, List.length_cons] at bound
    omega
  · exact bound

/-- The position after the text of a reference and the closing brace, if there is one. -/
def positionAfterName (quote : Char) (position : Position) (text : List Char) : Position :=
  position.after (text.take (text.length - (afterName quote text).length))

/-- Reads the text after the opening quote, up to the closing quote or the end. The quote is neither
a backslash nor a dollar sign. -/
def items (quote : Char) (interpolates : Bool) (position : Position) (text : List Char) :
    List Item :=
  match text with
  | [] => []
  | '\\' :: escaped :: tail =>
    .char (unescaped escaped) ::
      items quote interpolates ((position.next '\\').next escaped) tail
  | '$' :: '\x7b' :: tail =>
    let inside := (position.next '$').next '\x7b'
    if interpolates then
      .reference (trim (nameRun quote tail)) inside ::
        items quote interpolates (positionAfterName quote inside tail) (afterName quote tail)
    else
      .char '$' :: .char '\x7b' :: items quote interpolates inside tail
  | first :: rest =>
    if first == quote then []
    else .char first :: items quote interpolates (position.next first) rest
termination_by text.length
decreasing_by
  · simp only [List.length_cons]
    omega
  · have := length_afterName_le quote tail
    simp only [List.length_cons]
    omega
  all_goals simp only [List.length_cons]; omega

/-- A part of a literal that becomes one token. -/
inductive Piece where
  | text (chars : List Char)
  | reference (name : List Char) (position : Position)
  deriving DecidableEq, Repr

/-- Joins consecutive characters. No piece of text is empty. -/
def pieces : List Item → List Piece
  | [] => []
  | .reference name position :: rest => .reference name position :: pieces rest
  | .char value :: rest =>
    match pieces rest with
    | .text chars :: others => .text (value :: chars) :: others
    | others => .text [value] :: others

/-- The token of a piece; pieces of text have the kind and the position of the literal. -/
def Piece.token (kind : Kind) (position : Position) : Piece → Token
  | .text chars => ⟨kind, some (String.ofList chars), position⟩
  | .reference name place => ⟨.reference, some (String.ofList name), place⟩

/-- The tokens of the pieces of a literal. A literal without any is an empty text. -/
def tokensOf (kind : Kind) (position : Position) : List Piece → List Token
  | [] => [⟨kind, some "", position⟩]
  | found => found.map (Piece.token kind position)

/-- The tokens of a literal that begins at the position, given with its opening quote. -/
def tokens (kind : Kind) (interpolates : Bool) (position : Position) : List Char → List Token
  | [] => []
  | quote :: text =>
    tokensOf kind position (pieces (items quote interpolates (position.next quote) text))

end Onepass.Literal
