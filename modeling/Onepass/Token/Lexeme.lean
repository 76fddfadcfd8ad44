import Onepass.Token.Kind
import Onepass.Text.Colour
import Onepass.Text.Quoted
import Onepass.Text.Word

/-! # Lexemes

A script is cut into lexemes: consecutive, non-empty pieces that together are the whole text. A
lexeme has a sort, and each sort has an extent: how many characters at the beginning of a text
belong to a lexeme of this sort, zero if the text does not begin with one. The sort of the next
lexeme is the first one in a fixed order that matches at all.
-/

set_option autoImplicit false

namespace Onepass

open Text (isDigit isWordStart isWordPart apostrophe doubleQuote)

/-- The sorts of lexemes. -/
inductive LexemeSort where
  /-- The words `else` and `if` with blanks between them. -/
  | elseIf
  | number
  /-- A literal in double quotes, closed or not. -/
  | string
  /-- A literal in apostrophes, closed or not. -/
  | char
  | word
  | lineComment
  | blockComment
  | blank
  | symbol (mark : Symbol)
  /-- A single character that begins no other lexeme. -/
  | stray
  deriving DecidableEq, Repr

namespace LexemeSort

/-- The length of the longest beginning of the text that consists of such characters. -/
def runLength (isMember : Char → Bool) (text : List Char) : Nat :=
  (text.takeWhile isMember).length

/-- Whether the character separates tokens. Other white space does not. -/
def isSeparator (char : Char) : Bool :=
  char == ' ' || char == '\t' || char == '\x0c' || char == '\r' || char == '\n'

/-- Whether the blanks inside `else if` may contain the character. -/
def isInlineBlank (char : Char) : Bool :=
  char == ' ' || char == '\t'

/-- How much of the text after a whole number is its point and its fraction. A point followed by
another point is not part of a number. -/
def fractionExtent : List Char → Nat
  | '.' :: '.' :: _ => 0
  | '.' :: rest => 1 + runLength isDigit rest
  | _ => 0

/-- Digits with at most one point after them, and digits after the point. -/
def numberExtent (text : List Char) : Nat :=
  let whole := runLength isDigit text
  if whole == 0 then 0 else whole + fractionExtent (text.drop whole)

/-- How much of the text after the opening quote belongs to the literal: everything up to and with
the closing quote. A backslash takes the next character with it. An unclosed literal reaches to the
end of the text, but for a backslash that is its very last character. -/
def quotedTail (quote : Char) : List Char → Nat
  | [] => 0
  | '\\' :: _ :: rest => 2 + quotedTail quote rest
  | first :: rest =>
    if first == quote then 1 else if first == '\\' then 0 else 1 + quotedTail quote rest

/-- A literal in the given quotes. -/
def quotedExtent (quote : Char) : List Char → Nat
  | [] => 0
  | first :: rest => if first == quote then 1 + quotedTail quote rest else 0

/-- The length of the pairs of brackets that the text begins with. -/
def bracketsExtent : List Char → Nat
  | '[' :: ']' :: rest => 2 + bracketsExtent rest
  | _ => 0

/-- A word with the pairs of brackets directly after it. -/
def wordExtent : List Char → Nat
  | [] => 0
  | first :: rest =>
    if isWordStart first then
      let part := runLength isWordPart rest
      1 + part + bracketsExtent (rest.drop part)
    else 0

/-- The two words with one or more blanks between them, where no word goes on after the second. -/
def elseIfExtent : List Char → Nat
  | 'e' :: 'l' :: 's' :: 'e' :: rest =>
    let blanks := runLength isInlineBlank rest
    match rest.drop blanks with
    | 'i' :: 'f' :: tail =>
      if blanks == 0 || (tail.head?.map isWordPart).getD false then 0 else 4 + blanks + 2
    | _ => 0
  | _ => 0

/-- Two slashes and the rest of the line. -/
def lineCommentExtent : List Char → Nat
  | '/' :: '/' :: rest => 2 + runLength (· != '\n') rest
  | _ => 0

/-- How much of the text after the opening belongs to a block comment: everything up to and with the
next closing, or the whole text. -/
def blockCommentTail : List Char → Nat
  | [] => 0
  | '*' :: '/' :: _ => 2
  | _ :: rest => 1 + blockCommentTail rest

/-- A slash and an asterisk, and everything up to an asterisk and a slash. -/
def blockCommentExtent : List Char → Nat
  | '/' :: '*' :: rest => 2 + blockCommentTail rest
  | _ => 0

/-- The spelling of a symbol. -/
def symbolExtent (mark : Symbol) (text : List Char) : Nat :=
  if mark.spelling.toList.isPrefixOf text then mark.spelling.length else 0

/-- How many characters at the beginning of the text form a lexeme of the sort. -/
def extent : LexemeSort → List Char → Nat
  | elseIf => elseIfExtent
  | number => numberExtent
  | string => quotedExtent doubleQuote
  | char => quotedExtent apostrophe
  | word => wordExtent
  | lineComment => lineCommentExtent
  | blockComment => blockCommentExtent
  | blank => runLength isSeparator
  | symbol mark => symbolExtent mark
  | stray => fun text => min 1 text.length

/-- The order in which the sorts are tried. -/
def all : List LexemeSort :=
  [elseIf, number, string, char, word, lineComment, blockComment, blank] ++ Symbol.all.map symbol ++
    [stray]

/-- The sort of the lexeme at the beginning of the text. A text that is not empty always begins with
one, at worst a stray character. -/
def ofText (text : List Char) : LexemeSort :=
  (all.find? fun sort => 0 < sort.extent text).getD stray

/-- The chosen sort matches at least one character, so that cutting makes progress. -/
theorem extent_ofText_pos {text : List Char} (nonempty : text ≠ []) :
    0 < (ofText text).extent text := by
  have strayMatches : 0 < stray.extent text := by
    have := List.length_pos_iff.2 nonempty
    simp only [extent]
    omega
  unfold ofText
  cases found : all.find? fun sort => 0 < sort.extent text with
  | some sort => simpa using List.find?_some found
  | none =>
    have refused := List.find?_eq_none.1 found stray (by simp [all])
    simp [strayMatches] at refused

end LexemeSort

/-- A piece of the script. -/
structure Lexeme where
  sort : LexemeSort
  text : List Char
  deriving DecidableEq, Repr

namespace Lexeme

/-- Cuts a text into its lexemes. -/
def cut (text : List Char) : List Lexeme :=
  match text with
  | [] => []
  | char :: rest =>
    let sort := LexemeSort.ofText (char :: rest)
    let length := sort.extent (char :: rest)
    ⟨sort, (char :: rest).take length⟩ :: cut ((char :: rest).drop length)
termination_by text.length
decreasing_by
  have := LexemeSort.extent_ofText_pos (List.cons_ne_nil char rest)
  simp only [List.length_drop, List.length_cons]
  omega

/-- Nothing of the text is lost or read twice. -/
theorem flatMap_text_cut (text : List Char) : (cut text).flatMap Lexeme.text = text := by
  induction text using cut.induct with
  | case1 => simp [cut]
  | case2 char rest sort length ih =>
    rw [cut, List.flatMap_cons]
    exact (congrArg _ ih).trans (List.take_append_drop _ _)

end Lexeme

end Onepass
