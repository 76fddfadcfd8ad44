import Onepass.Token.Kind
import Onepass.Text.Layout
import Onepass.Text.Quoted
import Onepass.Text.Colour

/-! # Tokens and where they stand

Positions count lines and columns from one, in characters; only a line feed begins a new line. A
token keeps its text where the kind alone does not tell it. Dumps show one token a line, and the
trace of an execution one statement a line by its first token.
-/

set_option autoImplicit false

namespace Onepass

/-- A line and a column, both counted from one. -/
structure Position where
  line : Nat
  column : Nat
  deriving DecidableEq, Repr, Inhabited

namespace Position

/-- Where a script begins. -/
def start : Position :=
  ⟨1, 1⟩

/-- The position after a character. -/
def next (position : Position) (char : Char) : Position :=
  if char == '\n' then ⟨position.line + 1, 1⟩ else ⟨position.line, position.column + 1⟩

/-- The position after a text. -/
def after (position : Position) (text : List Char) : Position :=
  text.foldl next position

@[simp] theorem after_nil (position : Position) : position.after [] = position :=
  rfl

theorem after_append (position : Position) (first second : List Char) :
    position.after (first ++ second) = (position.after first).after second :=
  List.foldl_append

end Position

/-- A kind, a text where the kind has one, and the position. -/
structure Token where
  kind : Kind
  text : Option String
  position : Position
  deriving DecidableEq, Repr

namespace Token

/-- The text of a token whose kind has one. -/
def word (token : Token) : String :=
  token.text.getD ""

/-- How a diagnostic shows a token found in place of a type: by its text, or by its kind when it has
no text or an empty one. -/
def shown (token : Token) : String :=
  if token.word == "" then token.kind.description else token.word

/-- The position as the first column of dumps and traces. -/
def placeText (token : Token) : String :=
  Text.alignRight 4 (toString token.position.line) ++ ":" ++
    Text.alignLeft 4 (toString token.position.column)

/-- The line of the token in a dump. -/
def dumpLine (token : Token) : String :=
  Text.coloured "90" token.placeText ++ " " ++ Text.alignLeft 22 token.kind.tag ++ " " ++
    (token.text.map Text.quoted).getD ""

/-- The line of the trace for a statement that begins with the token, inside so many scopes. -/
def traceLine (token : Token) (depth : Nat) : String :=
  Text.coloured "90" <|
    token.placeText ++ Text.repeated depth "  " ++ " " ++ token.text.getD token.kind.description

/-- The token in angle brackets: tag, text and position. -/
def bracketed (token : Token) : String :=
  "<" ++ token.kind.tag ++ ((token.text.map fun text => " " ++ Text.quoted text).getD "") ++ " @" ++
    toString token.position.line ++ ":" ++ toString token.position.column ++ ">"

end Token

end Onepass
