import Onepass.Text.Printable

/-! # Texts in quotes, one line each

Token dumps and diagnostics about characters show a text in quotes so that it fits one line and
every character in it can be told apart. The quote is an apostrophe, unless the text holds an
apostrophe and no double quote. The quote itself and the backslash are preceded by a backslash; line
feed, carriage return and tab have letters of their own; every other unprintable character is shown
by its code point in two, four or eight hexadecimal digits.
-/

set_option autoImplicit false

namespace Onepass.Text

/-- The apostrophe, which quotes character literals and most quoted texts. -/
def apostrophe : Char := '\x27'

/-- The double quote, which quotes string literals. -/
def doubleQuote : Char := '\x22'

/-- The hexadecimal digits of a number, in lower case and padded with zeros to the given width. -/
def hexadecimal (width number : Nat) : List Char :=
  let digits := Nat.toDigits 16 number
  List.replicate (width - digits.length) '0' ++ digits

/-- The quote around a text. -/
def quoteFor (text : List Char) : Char :=
  if text.contains apostrophe && !text.contains doubleQuote then doubleQuote else apostrophe

/-- How one character of the text is written between the given quotes. -/
def quotedChar (quote char : Char) : List Char :=
  if char == quote || char == '\\' then ['\\', char]
  else if char == '\n' then ['\\', 'n']
  else if char == '\r' then ['\\', 'r']
  else if char == '\t' then ['\\', 't']
  else if isPrintable char then [char]
  else if char.toNat < 0x100 then '\\' :: 'x' :: hexadecimal 2 char.toNat
  else if char.toNat < 0x10000 then '\\' :: 'u' :: hexadecimal 4 char.toNat
  else '\\' :: 'U' :: hexadecimal 8 char.toNat

/-- The text in quotes, with everything in it that would not show as itself escaped. -/
def quoted (text : String) : String :=
  let chars := text.toList
  let quote := quoteFor chars
  String.ofList (quote :: chars.flatMap (quotedChar quote) ++ [quote])

end Onepass.Text
