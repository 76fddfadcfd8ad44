import Onepass.Diagnostic.Report
import Onepass.Token.Lexer

/-! # Scripts

A script is what an execution reads: the tokens of a source text with the mark of its end. Reading
at or past the end always finds that mark.
-/

set_option autoImplicit false

namespace Onepass

/-- The tokens of a source text, and the position of its end. -/
structure Script where
  tokens : Array Token
  finish : Position
  deriving DecidableEq, Repr

namespace Script

/-- How many tokens there are before the end. -/
def size (script : Script) : Nat :=
  script.tokens.size

/-- The mark of the end. -/
def finishToken (script : Script) : Token :=
  ⟨.endOfInput, none, script.finish⟩

/-- The token at a place; past the last one, the mark of the end. -/
def tokenAt (script : Script) (place : Nat) : Token :=
  script.tokens[place]?.getD script.finishToken

/-- The kind of the token at a place. -/
def kindAt (script : Script) (place : Nat) : Kind :=
  (script.tokenAt place).kind

theorem lt_size_of_kindAt {script : Script} {place : Nat}
    (proper : script.kindAt place ≠ .endOfInput) : place < script.size := by
  apply Decidable.byContradiction
  intro outside
  apply proper
  have absent : script.tokens[place]? = none :=
    Array.getElem?_eq_none (by simpa [size] using outside)
  simp [kindAt, tokenAt, absent, finishToken]

/-- A diagnostic about the token at a place. -/
def fault (script : Script) (cause : Cause) (place : Nat) : Diagnostic :=
  ⟨cause, (script.tokenAt place).position⟩

/-- All tokens, the mark of the end included. -/
def allTokens (script : Script) : List Token :=
  script.tokens.toList ++ [script.finishToken]

/-- The script of a source text. Stray characters are passed over. -/
def ofSource (source : List Char) : Script :=
  ⟨(Token.proper source).toArray, (Token.finish source).position⟩

/-- Reads a source text. Strict reading refuses a text with a stray character, and reports the
first. -/
def read (strict : Bool) (source : String) : Except Diagnostic Script :=
  match strict, Token.firstStray? source.toList with
  | true, some stray => .error ⟨.strayCharacter stray.char, stray.position⟩
  | _, _ => .ok (ofSource source.toList)

end Script

end Onepass
