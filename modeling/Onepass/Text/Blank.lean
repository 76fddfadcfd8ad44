import Onepass.Text.CodePoint

/-! # Blank characters around a text

Trimming removes every character that counts as white space in any script, the four information
separators included. The blanks between tokens are a much smaller class; see the lexemes.
-/

set_option autoImplicit false

namespace Onepass.Text

/-- All blank characters. -/
def blankRanges : List CodeRange := [
  (0x9, 0xd), (0x1c, 0x20), (0x85, 0x85), (0xa0, 0xa0), (0x1680, 0x1680), (0x2000, 0x200a),
  (0x2028, 0x2029), (0x202f, 0x202f), (0x205f, 0x205f), (0x3000, 0x3000)]

/-- Whether trimming removes the character. -/
def isBlank (char : Char) : Bool :=
  covers blankRanges char

/-- The text without the blanks at its end. -/
def trimRight (text : List Char) : List Char :=
  (text.reverse.dropWhile isBlank).reverse

/-- The text without the blanks at both ends. -/
def trim (text : List Char) : List Char :=
  trimRight (text.dropWhile isBlank)

end Onepass.Text
