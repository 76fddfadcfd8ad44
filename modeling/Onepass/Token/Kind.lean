/-! # Kinds of tokens

The vocabulary of the language: its symbols and keywords with their spellings, and the kinds of
tokens made of them. Every kind has a tag, by which dumps name it, and a description, by which
diagnostics do.
-/

set_option autoImplicit false

namespace Onepass

/-- The operators and the punctuation. The shifts, the arrow and the operators on bits are reserved:
no statement uses them. -/
inductive Symbol where
  | plus | minus | asterisk | slash | percent | plusPlus | minusMinus | equalEqual | notEqual
  | lessThan | greaterThan | lessOrEqual | greaterOrEqual | and | or | bang | equal | plusEqual
  | minusEqual | asteriskEqual | slashEqual | percentEqual | bitAnd | bitOr | bitXor | bitNot
  | leftShift | rightShift | leftParen | rightParen | leftBrace | rightBrace | leftBracket
  | rightBracket | dollar | arrow | comma | dot | dotDot | colon | semicolon
  deriving DecidableEq, Repr

namespace Symbol

/-- How the symbol is written. -/
def spelling : Symbol → String
  | .plus => "+"
  | .minus => "-"
  | .asterisk => "*"
  | .slash => "/"
  | .percent => "%"
  | .plusPlus => "++"
  | .minusMinus => "--"
  | .equalEqual => "=="
  | .notEqual => "!="
  | .lessThan => "<"
  | .greaterThan => ">"
  | .lessOrEqual => "<="
  | .greaterOrEqual => ">="
  | .and => "&&"
  | .or => "||"
  | .bang => "!"
  | .equal => "="
  | .plusEqual => "+="
  | .minusEqual => "-="
  | .asteriskEqual => "*="
  | .slashEqual => "/="
  | .percentEqual => "%="
  | .bitAnd => "&"
  | .bitOr => "|"
  | .bitXor => "^"
  | .bitNot => "~"
  | .leftShift => "<<"
  | .rightShift => ">>"
  | .leftParen => "("
  | .rightParen => ")"
  | .leftBrace => "\x7b"
  | .rightBrace => "\x7d"
  | .leftBracket => "["
  | .rightBracket => "]"
  | .dollar => "$"
  | .arrow => "->"
  | .comma => ","
  | .dot => "."
  | .dotDot => ".."
  | .colon => ":"
  | .semicolon => ";"

/-- The tag of the symbol in dumps. -/
def tag : Symbol → String
  | .plus => "PLUS"
  | .minus => "MINUS"
  | .asterisk => "ASTERISK"
  | .slash => "SLASH"
  | .percent => "PERCENT"
  | .plusPlus => "PLUS_PLUS"
  | .minusMinus => "MINUS_MINUS"
  | .equalEqual => "EQUAL_EQUAL"
  | .notEqual => "NOT_EQUAL"
  | .lessThan => "LESS_THAN"
  | .greaterThan => "GREATER_THAN"
  | .lessOrEqual => "LESS_THAN_OR_EQUAL"
  | .greaterOrEqual => "GREATER_THAN_OR_EQUAL"
  | .and => "AND"
  | .or => "OR"
  | .bang => "BANG"
  | .equal => "EQUAL"
  | .plusEqual => "PLUS_EQUAL"
  | .minusEqual => "MINUS_EQUAL"
  | .asteriskEqual => "ASTERISK_EQUAL"
  | .slashEqual => "SLASH_EQUAL"
  | .percentEqual => "PERCENT_EQUAL"
  | .bitAnd => "BITWISE_AND"
  | .bitOr => "BITWISE_OR"
  | .bitXor => "BITWISE_XOR"
  | .bitNot => "BITWISE_NOT"
  | .leftShift => "LEFT_SHIFT"
  | .rightShift => "RIGHT_SHIFT"
  | .leftParen => "LEFT_PAREN"
  | .rightParen => "RIGHT_PAREN"
  | .leftBrace => "LEFT_BRACE"
  | .rightBrace => "RIGHT_BRACE"
  | .leftBracket => "LEFT_BRACKET"
  | .rightBracket => "RIGHT_BRACKET"
  | .dollar => "DOLLAR"
  | .arrow => "ARROW"
  | .comma => "COMMA"
  | .dot => "DOT"
  | .dotDot => "DOT_DOT"
  | .colon => "COLON"
  | .semicolon => "SEMICOLON"

/-- All symbols, those of two characters before those of one. -/
def all : List Symbol := [
  .plusPlus, .minusMinus, .equalEqual, .notEqual, .lessOrEqual, .greaterOrEqual, .and, .or,
  .plusEqual, .minusEqual, .asteriskEqual, .slashEqual, .percentEqual, .leftShift, .rightShift,
  .arrow, .dotDot, .plus, .minus, .asterisk, .slash, .percent, .lessThan, .greaterThan, .bang,
  .equal, .bitAnd, .bitOr, .bitXor, .bitNot, .leftParen, .rightParen, .leftBrace, .rightBrace,
  .leftBracket, .rightBracket, .dollar, .comma, .dot, .colon, .semicolon]

end Symbol

/-- The words with a meaning of their own, and the pair of words that counts as one. -/
inductive Keyword where
  | numberWord | stringWord | charWord | booleanWord | nullWord | voidWord | arrayWord
  | printWord | printlnWord | ifWord | elseWord | elseIfWord | forWord | whileWord | inWord
  | funcWord | returnWord | breakWord | continueWord | isWord | asWord
  deriving DecidableEq, Repr

namespace Keyword

/-- How the keyword is written. -/
def spelling : Keyword → String
  | .numberWord => "number"
  | .stringWord => "string"
  | .charWord => "char"
  | .booleanWord => "boolean"
  | .nullWord => "null"
  | .voidWord => "void"
  | .arrayWord => "array"
  | .printWord => "print"
  | .printlnWord => "println"
  | .ifWord => "if"
  | .elseWord => "else"
  | .elseIfWord => "else if"
  | .forWord => "for"
  | .whileWord => "while"
  | .inWord => "in"
  | .funcWord => "func"
  | .returnWord => "return"
  | .breakWord => "break"
  | .continueWord => "continue"
  | .isWord => "is"
  | .asWord => "as"

/-- The tag of the keyword in dumps. -/
def tag : Keyword → String
  | .numberWord => "NUMBER"
  | .stringWord => "STRING"
  | .charWord => "CHAR"
  | .booleanWord => "BOOLEAN"
  | .nullWord => "NULL"
  | .voidWord => "VOID"
  | .arrayWord => "ARRAY"
  | .printWord => "PRINT"
  | .printlnWord => "PRINTLN"
  | .ifWord => "IF"
  | .elseWord => "ELSE"
  | .elseIfWord => "ELSE_IF"
  | .forWord => "FOR"
  | .whileWord => "WHILE"
  | .inWord => "IN"
  | .funcWord => "FUNC"
  | .returnWord => "RETURN"
  | .breakWord => "BREAK"
  | .continueWord => "CONTINUE"
  | .isWord => "IS"
  | .asWord => "AS"

/-- All keywords. -/
def all : List Keyword := [
  .numberWord, .stringWord, .charWord, .booleanWord, .nullWord, .voidWord, .arrayWord,
  .printWord, .printlnWord, .ifWord, .elseWord, .elseIfWord, .forWord, .whileWord, .inWord,
  .funcWord, .returnWord, .breakWord, .continueWord, .isWord, .asWord]

/-- The keyword that a word is. The pair `else if` holds a blank, so no single word is it. -/
def ofWord? (word : String) : Option Keyword :=
  all.find? fun keyword => keyword.spelling == word

/-- Whether the keyword names a type. -/
def isType : Keyword → Bool
  | .numberWord | .stringWord | .charWord | .booleanWord | .nullWord | .voidWord
  | .arrayWord => true
  | _ => false

end Keyword

/-- What a token is. -/
inductive Kind where
  /-- Digits with at most one point. -/
  | numberLiteral
  /-- A piece of plain text of a string literal. -/
  | stringLiteral
  /-- A literal in apostrophes. -/
  | charLiteral
  /-- One of the two truth values. -/
  | booleanLiteral
  /-- A variable referred to inside a string literal. -/
  | reference
  /-- A word that is no keyword. -/
  | identifier
  /-- A word with one or more pairs of brackets folded into it. -/
  | arrayType
  /-- A keyword. -/
  | keyword (word : Keyword)
  /-- An operator or a punctuation mark. -/
  | symbol (mark : Symbol)
  /-- The end of the script. -/
  | endOfInput
  deriving DecidableEq, Repr

namespace Kind

/-- How diagnostics name the kind. -/
def description : Kind → String
  | .numberLiteral => "number literal"
  | .stringLiteral => "string literal"
  | .charLiteral => "char literal"
  | .booleanLiteral => "boolean literal"
  | .reference => "interpolated variable"
  | .identifier => "identifier"
  | .arrayType => "array type"
  | .keyword word => word.spelling
  | .symbol mark => mark.spelling
  | .endOfInput => "end of input"

/-- How dumps name the kind. -/
def tag : Kind → String
  | .numberLiteral => "NUMBER_LITERAL"
  | .stringLiteral => "STRING_LITERAL"
  | .charLiteral => "CHAR_LITERAL"
  | .booleanLiteral => "BOOLEAN_LITERAL"
  | .reference => "VARIABLE"
  | .identifier => "IDENTIFIER"
  | .arrayType => "ARRAY_TYPE"
  | .keyword word => word.tag
  | .symbol mark => mark.tag
  | .endOfInput => "EOF"

/-- All kinds. -/
def all : List Kind :=
  [.numberLiteral, .stringLiteral, .charLiteral, .booleanLiteral, .reference, .identifier,
    .arrayType, .endOfInput] ++ Keyword.all.map .keyword ++ Symbol.all.map .symbol

/-- The kind with the given tag. -/
def ofTag? (tag : String) : Option Kind :=
  all.find? fun kind => kind.tag == tag

/-- Whether a token of the kind names a type, in annotations and after `is` and `as`. -/
def isType : Kind → Bool
  | .keyword word => word.isType
  | .arrayType => true
  | _ => false

end Kind

end Onepass
