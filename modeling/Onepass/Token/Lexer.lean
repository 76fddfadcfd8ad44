import Onepass.Token.Lexeme
import Onepass.Token.Literal

/-! # From lexemes to tokens

Each lexeme gives its tokens: one for most, several for a literal with references, none for blanks,
comments and stray characters. One more token marks the end of the script, just past its last
character.
-/

set_option autoImplicit false

namespace Onepass

/-- The kind of a word. -/
def Kind.ofWord (word : List Char) : Kind :=
  if "[]".toList.isSuffixOf word then .arrayType
  else if word = "true".toList ∨ word = "false".toList then .booleanLiteral
  else
    match Keyword.ofWord? (String.ofList word) with
    | some found => .keyword found
    | none => .identifier

namespace Lexeme

/-- The tokens of a lexeme at the given position. Symbols need no text. -/
def tokens (position : Position) (lexeme : Lexeme) : List Token :=
  match lexeme.sort with
  | .number => [⟨.numberLiteral, some (String.ofList lexeme.text), position⟩]
  | .string => Literal.tokens .stringLiteral true position lexeme.text
  | .char => Literal.tokens .charLiteral false position lexeme.text
  | .elseIf => [⟨.keyword .elseIfWord, some Keyword.elseIfWord.spelling, position⟩]
  | .word => [⟨Kind.ofWord lexeme.text, some (String.ofList lexeme.text), position⟩]
  | .symbol mark => [⟨.symbol mark, none, position⟩]
  | .lineComment | .blockComment | .blank | .stray => []

/-- The lexemes with the positions of their first characters. -/
def placed (position : Position) : List Lexeme → List (Position × Lexeme)
  | [] => []
  | lexeme :: rest => (position, lexeme) :: placed (position.after lexeme.text) rest

end Lexeme

/-- A character that begins no token, and where it stands. -/
structure StrayCharacter where
  char : Char
  position : Position
  deriving DecidableEq, Repr

namespace Token

/-- The lexemes of a source text with their positions. -/
def lexemes (source : List Char) : List (Position × Lexeme) :=
  Lexeme.placed Position.start (Lexeme.cut source)

/-- The token that ends every script. -/
def finish (source : List Char) : Token :=
  ⟨.endOfInput, none, Position.start.after source⟩

/-- All tokens of a source text but the last one. -/
def proper (source : List Char) : List Token :=
  (lexemes source).flatMap fun entry => entry.2.tokens entry.1

/-- The first stray character. -/
def firstStray? (source : List Char) : Option StrayCharacter :=
  (lexemes source).findSome? fun entry =>
    match entry.2.sort, entry.2.text with
    | .stray, char :: _ => some ⟨char, entry.1⟩
    | _, _ => none

end Token

end Onepass
