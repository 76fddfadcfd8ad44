import Onepass.Proofs.Lexing.LongestMatch
import Onepass.Proofs.Tree.Basic

/-! # Texts and names, in one literal and in a sum

Texts and the names of variables can stand in one string literal, each name between braces behind a dollar
sign, or be added up, each text in a literal of its own. Reading the one literal divides the texts anew: a
text without characters is gone, and texts that stand side by side become one. What stays are the letters,
which are the characters of the texts and the names between them.
-/

set_option autoImplicit false

namespace Onepass

open Text (isDigit isWordPart doubleQuote trim IsBareWord)

/-! ## Words and literals as lexemes -/

/-- A word that is no keyword and has no brackets behind it. -/
structure Text.IsIdentifier (word : List Char) : Prop where
  bare : IsBareWord word
  named : Kind.ofWord word = .identifier

namespace Text

variable {word rest : List Char}

/-- No blank is a character of words. -/
theorem blanks_apart_from_words : (blankRanges.all fun range =>
    (List.range' range.1 (range.2 + 1 - range.1)).all fun code =>
      !isWordPart (Char.ofNat code)) = true := by
  decide +kernel

theorem not_isBlank_of_isWordPart {char : Char} (part : isWordPart char = true) :
    isBlank char = false := by
  rw [Bool.eq_false_iff, ne_eq, isBlank, covers_iff]
  rintro ⟨range, among, lower, upper⟩
  have table := List.all_eq_true.mp blanks_apart_from_words range among
  have apart := List.all_eq_true.mp table char.toNat (List.mem_range'_1.mpr (by omega))
  rw [Char.ofNat_toNat, part] at apart
  cases apart

theorem IsBareWord.isWord (bare : IsBareWord word) : LexemeSort.IsWord word := by
  obtain @⟨first, part, starts, parts⟩ := bare
  have plain : isDigit first = false := by
    rw [Bool.eq_false_iff]
    intro digit
    rw [not_isWordStart_of_isDigit digit] at starts
    cases starts
  have word := LexemeSort.IsWord.intro 0 starts plain parts
  rwa [LexemeSort.brackets, List.append_nil] at word

theorem IsBareWord.trim_eq (bare : IsBareWord word) : trim word = word := by
  have solid (char : Char) (member : char ∈ word) : isBlank char = false :=
    not_isBlank_of_isWordPart (bare.isWordPart_eq char member)
  have front : word.dropWhile isBlank = word :=
    List.dropWhile_eq_self_iff.mpr fun nonempty => by simp [solid]
  have back : word.rdropWhile isBlank = word :=
    List.rdropWhile_eq_self_iff.mpr fun nonempty => by simp [solid]
  rw [Text.trim_eq, front, back]

/-- A word in a reference ends neither the reference nor the literal. -/
theorem IsBareWord.inner (bare : IsBareWord word) :
    ∀ char ∈ word, char ≠ '\x7d' ∧ char ≠ doubleQuote := by
  intro char member
  have part := bare.isWordPart_eq char member
  constructor <;> rintro rfl <;> cases part

theorem IsBareWord.extent_eq (bare : IsBareWord word) (blank : ∀ char ∈ rest.head?, char = ' ') :
    LexemeSort.wordExtent (word ++ rest) = word.length := by
  obtain @⟨first, part, starts, parts⟩ := bare
  have run : LexemeSort.runLength isWordPart (part ++ rest) = part.length :=
    LexemeSort.runLength_append parts fun char head => by
      rw [blank char head]
      rfl
  have unfolded : LexemeSort.bracketsExtent rest = 0 :=
    LexemeSort.bracketsExtent_append 0 fun char head => by
      rw [blank char head]
      decide
  simp [LexemeSort.wordExtent, starts, run, unfolded]
  omega

/-- A name before a blank is no first half of `else if`. -/
theorem IsIdentifier.elseIfExtent_eq (isIdentifier : IsIdentifier word)
    (blank : ∀ char ∈ rest.head?, char = ' ') : LexemeSort.elseIfExtent (word ++ rest) = 0 := by
  apply Nat.eq_zero_of_not_pos
  intro matched
  obtain ⟨char, tail, isBlank, same⟩ := LexemeSort.elseIfExtent_pos matched
  have blank_eq : isWordPart char = false := by
    have cases : char = ' ' ∨ char = '\t' := by simpa [LexemeSort.isInlineBlank] using isBlank
    rcases cases with rfl | rfl <;> rfl
  -- Both texts begin with all that stands before their first blank.
  have front : (word ++ rest).takeWhile isWordPart = word := by
    rw [List.takeWhile_append_of_pos isIdentifier.bare.isWordPart_eq]
    cases rest with
    | nil => simp
    | cons first behind =>
        obtain rfl := blank first rfl
        exact List.append_nil word
  have same_word : word = "else".toList := by
    rw [← front, same, List.takeWhile_append_of_pos (List.all_eq_true.mp (by decide)),
      List.takeWhile_cons_of_neg (by simp [blank_eq]), List.append_nil]
  have named := isIdentifier.named
  rw [same_word] at named
  revert named
  decide +kernel

end Text

namespace Literal.Body

variable {quote : Char} {inside : List Char}

/-- Characters that neither close a literal nor escape anything. -/
theorem plain_append {run : List Char} (body : Body quote inside)
    (plain : ∀ char ∈ run, char ≠ quote ∧ char ≠ '\\') : Body quote (run ++ inside) := by
  induction run with
  | nil => exact body
  | cons char run ih =>
      obtain ⟨inner, unescaping⟩ := plain char List.mem_cons_self
      exact .plain inner unescaping (ih fun other member => plain other (List.mem_cons_of_mem _ member))

theorem escaped_append (body : Body doubleQuote inside) (chars : List Char) :
    Body doubleQuote (escaped ['\\', doubleQuote, '$'] chars ++ inside) := by
  induction chars with
  | nil => exact body
  | cons char chars ih =>
      by_cases mark : char ∈ ['\\', doubleQuote, '$']
      · rw [escaped_cons_of_mem mark]
        exact .escape ih
      · rw [escaped_cons_of_not_mem mark]
        simp only [List.mem_cons, not_or] at mark
        exact .plain mark.2.1 mark.1 ih

/-- The quote behind the body is the one that closes the literal. -/
theorem quotedTail_eq (isQuote : IsQuote quote)
    (body : Body quote inside) (rest : List Char) :
    LexemeSort.quotedTail quote (inside ++ quote :: rest) = inside.length + 1 := by
  induction body with
  | nil => exact LexemeSort.quotedTail_closed isQuote.ne.1 rest
  | plain inner unescaping _ ih =>
      rw [List.cons_append, LexemeSort.quotedTail_plain inner unescaping, ih, List.length_cons]
      omega
  | escape _ ih =>
      rw [List.cons_append, List.cons_append, LexemeSort.quotedTail, ih, List.length_cons,
        List.length_cons]
      omega

end Literal.Body

namespace Lexeme

variable {word inside rest : List Char}

theorem cut_identifier (isIdentifier : Text.IsIdentifier word)
    (blank : ∀ char ∈ rest.head?, char = ' ') : cut (word ++ rest) = ⟨.word, word⟩ :: cut rest := by
  have nonempty := isIdentifier.bare.ne_nil
  have extent : LexemeSort.word.extent (word ++ rest) = word.length :=
    isIdentifier.bare.extent_eq blank
  have matched : 0 < LexemeSort.word.extent (word ++ rest) := by
    rw [extent]
    exact List.length_pos_iff.mpr nonempty
  exact cut_of_recognised nonempty (LexemeSort.ofText_eq_of_unbounded ⟨rfl, rfl⟩ matched
    (isIdentifier.elseIfExtent_eq blank)) extent

theorem cut_literal (body : Literal.Body doubleQuote inside) (rest : List Char) :
    cut (Literal.enclosed doubleQuote inside ++ rest) =
      ⟨.string, Literal.enclosed doubleQuote inside⟩ :: cut rest := by
  have unfolded : Literal.enclosed doubleQuote inside ++ rest =
      doubleQuote :: (inside ++ doubleQuote :: rest) := by
    simp [Literal.enclosed]
  refine cut_of_recognised (List.cons_ne_nil _ _) ?_ ?_
  · rw [unfolded]
    exact LexemeSort.ofText_doubleQuote _
  · rw [unfolded, LexemeSort.extent, LexemeSort.quotedExtent, if_pos (beq_self_eq_true _),
      body.quotedTail_eq (.inl rfl)]
    simp [Literal.enclosed]
    omega

/-- A plus sign with a blank on either side. -/
theorem cut_plus (solid : ∀ char ∈ rest.head?, LexemeSort.isSeparator char = false) :
    cut (" + ".toList ++ rest) =
      ⟨.blank, [' ']⟩ :: ⟨.symbol .plus, "+".toList⟩ :: ⟨.blank, [' ']⟩ :: cut rest := by
  have blank {behind : List Char} (ended : ∀ char ∈ behind.head?, LexemeSort.isSeparator char = false) :
      cut ([' '] ++ behind) = ⟨.blank, [' ']⟩ :: cut behind :=
    cut_of_recognised (List.cons_ne_nil _ _) (LexemeSort.ofText_separator rfl behind)
      (LexemeSort.runLength_append (List.forall_mem_singleton.mpr rfl) ended)
  have sign : cut ("+".toList ++ ([' '] ++ rest)) =
      ⟨.symbol .plus, "+".toList⟩ :: cut ([' '] ++ rest) :=
    cut_of_recognised (List.cons_ne_nil _ _) rfl rfl
  change cut ([' '] ++ ("+".toList ++ ([' '] ++ rest))) = _
  rw [blank (fun char first => by cases first; rfl), sign, blank solid]

end Lexeme

/-! ## Tokens of a script -/

namespace Script

/-- The tokens of a script behind its first ones are those that have the same contents. -/
theorem shows_of_behind {script : Script} (before : List Token) {found tokens : List Token}
    (split : script.tokens.toList = before ++ found)
    (same : found.map Token.content = tokens.map Token.content) :
    script.Shows before.length script.size tokens := by
  induction tokens generalizing before found with
  | nil =>
      obtain rfl : found = [] := List.map_eq_nil_iff.mp same
      rw [Shows, size, ← Array.length_toList, split, List.append_nil]
  | cons token tokens ih =>
      cases found with
      | nil => cases same
      | cons first found =>
          obtain ⟨alike, others⟩ := List.cons.inj same
          have here : script.tokenAt before.length = first := by
            rw [tokenAt, ← Array.getElem?_toList, split]
            simp
          have behind := ih (before ++ [first]) (by simpa using split) others
          rw [List.length_append] at behind
          refine ⟨⟨?_, ?_, trivial⟩, behind⟩
          · rw [here]
            exact congrArg Prod.fst alike
          · rw [here]
            exact congrArg Prod.snd alike

theorem shows_of_content {source : List Char} {tokens : List Token}
    (same : (Token.proper source).map Token.content = tokens.map Token.content) :
    (ofSource source).Shows 0 (ofSource source).size tokens :=
  shows_of_behind [] rfl same

theorem kindAt_size (script : Script) : script.kindAt script.size = .endOfInput := by
  simp [kindAt, tokenAt, size, finishToken]

end Script

/-! ## Pieces in one literal -/

namespace Literal

/-- What an item is, apart from its position. -/
def Item.piece : Item → Onepass.Piece
  | .char value => .text (String.singleton value)
  | .reference name _ => .reference (String.ofList name)

/-- What a piece is, apart from its position. -/
def Piece.piece : Piece → Onepass.Piece
  | .text chars => .text (String.ofList chars)
  | .reference name _ => .reference (String.ofList name)

end Literal

namespace Piece

/-- How a piece stands inside a literal. -/
def spelled : Piece → List Char
  | .text content => Literal.escaped ['\\', doubleQuote, '$'] content.toList
  | .reference name => '$' :: '\x7b' :: (name.toList ++ ['\x7d'])

/-- The string literal with the pieces. -/
def literal (pieces : List Piece) : List Char :=
  Literal.enclosed doubleQuote (pieces.flatMap spelled)

/-- The parts of the literal that are the piece. -/
def parts : Piece → List Literal.Part
  | .text content => content.toList.map fun char =>
    if char ∈ ['\\', doubleQuote, '$'] then .escape char else .plain char
  | .reference name => [.reference name.toList ['\x7d']]

/-- The piece divided into single characters. -/
def letters : Piece → List Piece
  | .text content => content.toList.map fun char => .text (String.singleton char)
  | .reference name => [.reference name]

/-- The names among the pieces are identifiers. -/
def Named (pieces : List Piece) : Prop :=
  ∀ name, .reference name ∈ pieces → Text.IsIdentifier name.toList

variable {piece : Piece} {pieces : List Piece} {content name : String} {inside rest : List Char}

theorem Named.tail (named : Named (piece :: pieces)) : Named pieces :=
  fun name member => named name (List.mem_cons_of_mem _ member)

theorem Named.isIdentifier (named : Named (.reference name :: pieces)) :
    Text.IsIdentifier name.toList :=
  named name List.mem_cons_self

/-- Nothing in the pieces closes the literal. -/
theorem body_literal (named : Named pieces) : Literal.Body doubleQuote (pieces.flatMap spelled) := by
  induction pieces with
  | nil => exact .nil
  | cons piece pieces ih =>
      have behind := ih named.tail
      rw [List.flatMap_cons]
      cases piece with
      | text content => exact behind.escaped_append content.toList
      | reference name =>
          have part := named.isIdentifier.bare.isWordPart_eq
          refine behind.plain_append fun char member => ?_
          simp only [spelled, List.mem_cons, List.mem_append, List.not_mem_nil, or_false] at member
          rcases member with rfl | rfl | inside | rfl
          · decide
          · decide
          · constructor <;> rintro rfl <;> cases part _ inside
          · decide

/-- The literal is laid out as its pieces. -/
theorem layout_literal (named : Named pieces) :
    Literal.Layout doubleQuote true (pieces.flatMap spelled ++ [doubleQuote])
      (pieces.flatMap parts) := by
  induction pieces with
  | nil => exact .closed []
  | cons piece pieces ih =>
      have behind := ih named.tail
      rw [List.flatMap_cons, List.flatMap_cons, List.append_assoc]
      generalize pieces.flatMap spelled ++ [doubleQuote] = rest at behind
      generalize pieces.flatMap parts = others at behind
      cases piece with
      | text content =>
          rw [spelled, parts]
          induction content.toList with
          | nil => exact behind
          | cons char chars ih =>
              by_cases mark : char ∈ ['\\', doubleQuote, '$']
              · rw [Literal.escaped_cons_of_mem mark, List.map_cons, if_pos mark]
                exact .escape ih
              · rw [Literal.escaped_cons_of_not_mem mark, List.map_cons, if_neg mark]
                simp only [List.mem_cons, List.not_mem_nil, or_false, not_or] at mark
                exact .plain mark.2.1 (fun same => absurd same mark.1)
                  (fun _ same => absurd same mark.2.2) ih
      | reference name =>
          have inner := named.isIdentifier.bare.inner
          have reference := Literal.Layout.reference rfl inner (.inl rfl) behind
          simpa [spelled, parts] using reference

/-- What the parts of the literal stand for are the letters of the pieces. -/
theorem letters_itemsOf (named : Named pieces) (position : Position) :
    (Literal.itemsOf position (pieces.flatMap parts)).map Literal.Item.piece =
      pieces.flatMap letters := by
  have unplaced (parts : List Literal.Part) (position : Position) :
      (Literal.itemsOf position parts).map Literal.Item.piece =
        parts.map fun part => (part.item .start).piece := by
    induction parts generalizing position with
    | nil => rfl
    | cons part parts ih =>
        rw [Literal.itemsOf, List.map_cons, List.map_cons, ih]
        cases part <;> rfl
  rw [unplaced, List.map_flatMap]
  refine List.flatMap_congr fun piece member => ?_
  cases piece with
  | text content =>
      rw [parts, letters, List.map_map]
      refine List.map_congr_left fun char _ => ?_
      by_cases mark : char ∈ ['\\', doubleQuote, '$']
      · have known : Literal.unescaped char = char := by
          simp only [List.mem_cons, List.not_mem_nil, or_false] at mark
          rcases mark with rfl | rfl | rfl <;> rfl
        simp only [Function.comp_apply, if_pos mark, Literal.Part.item, Literal.Item.piece, known]
      · simp only [Function.comp_apply, if_neg mark, Literal.Part.item, Literal.Item.piece]
  | reference name =>
      have trimmed := (named name member).bare.trim_eq
      simp [parts, letters, Literal.Part.item, Literal.Item.piece, trimmed]

/-- Joining characters keeps the letters. -/
theorem letters_pieces (items : List Literal.Item) :
    ((Literal.pieces items).map Literal.Piece.piece).flatMap letters =
      items.map Literal.Item.piece := by
  fun_induction Literal.pieces items with
  | case1 => rfl
  | case2 name position rest ih => exact congrArg (List.cons _) ih
  | case3 char rest chars others joined ih =>
      rw [joined, List.map_cons, List.flatMap_cons] at ih
      refine Eq.trans ?_ (congrArg (List.cons _) ih)
      simp [letters, Literal.Piece.piece, Literal.Item.piece]
  | case4 char rest _ ih =>
      rw [List.map_cons, List.map_cons, List.flatMap_cons, ih]
      simp [letters, Literal.Piece.piece, Literal.Item.piece]

/-- The literal is read as pieces with the same letters. -/
theorem tokens_literal (named : Named pieces) (position : Position) :
    ∃ first rest, (first :: rest).flatMap letters = pieces.flatMap letters ∧
      (Literal.tokens .stringLiteral true position (literal pieces)).map Token.content =
        (first :: rest).map fun piece => piece.token.content := by
  have read : Literal.tokens .stringLiteral true position (literal pieces) =
      Literal.tokensOf .stringLiteral position
        (Literal.pieces (Literal.itemsOf (position.next doubleQuote) (pieces.flatMap parts))) := by
    rw [← (layout_literal named).items_eq (.inl rfl)]
    rfl
  have same := letters_pieces
    (Literal.itemsOf (position.next doubleQuote) (pieces.flatMap parts))
  rw [letters_itemsOf named] at same
  rw [read]
  generalize Literal.pieces _ = found at same
  cases found with
  | nil => exact ⟨.text "", [], same, rfl⟩
  | cons first rest =>
      refine ⟨first.piece, rest.map Literal.Piece.piece, same, ?_⟩
      have contents (piece : Literal.Piece) :
          (piece.token .stringLiteral position).content = piece.piece.token.content := by
        cases piece <;> rfl
      simp [Literal.tokensOf, contents]

/-- The script of the literal shows pieces with the same letters. -/
theorem shows_literal (named : Named pieces) :
    ∃ first rest, (first :: rest).flatMap letters = pieces.flatMap letters ∧
      (Script.ofSource (literal pieces)).Shows 0 (Script.ofSource (literal pieces)).size
        (Expr.string first rest).tokens := by
  obtain ⟨first, rest, same, contents⟩ := tokens_literal named .start
  have cut : Lexeme.cut (literal pieces) = [⟨.string, literal pieces⟩] := by
    have alone := Lexeme.cut_literal (body_literal named) []
    rwa [List.append_nil, Lexeme.cut] at alone
  have read : Token.proper (literal pieces) =
      Literal.tokens .stringLiteral true .start (literal pieces) := by
    rw [Token.proper, Token.lexemes, cut]
    exact List.append_nil _
  refine ⟨first, rest, same, Script.shows_of_content ?_⟩
  rw [read, contents, Expr.tokens, ← List.map_cons, List.map_map]
  rfl

/-! ## Pieces in a sum -/

/-- How the piece is written as an operand: a text as a literal of its own, a name as it is. -/
def addend : Piece → List Char
  | .text content => literal [.text content]
  | .reference name => name.toList

/-- The sum of an empty text and the pieces. -/
def sum (pieces : List Piece) : List Char :=
  literal [] ++ pieces.flatMap fun piece => " + ".toList ++ piece.addend

/-- The piece as an operand. -/
def operand : Piece → Expr
  | .text content => .string (.text content) []
  | .reference name => .named false name

/-- The tree of a sum that begins with the given one and goes on with the pieces. -/
def added (front : Expr) (pieces : List Piece) : Expr :=
  pieces.foldl (fun front piece => .binary .add front piece.operand) front

/-- The operand is one token, and it is cut off before a blank. -/
theorem exists_token (named : Named (piece :: pieces)) :
    ∃ sort token, piece.operand.tokens = [token] ∧ token.Legible sort ∧ token.written = piece.addend ∧
      ∀ rest : List Char, (∀ char ∈ rest.head?, char = ' ') →
        Lexeme.cut (piece.addend ++ rest) = ⟨sort, piece.addend⟩ :: Lexeme.cut rest := by
  cases piece with
  | text content =>
      have body : Literal.Body doubleQuote ([Piece.text content].flatMap spelled) :=
        body_literal fun name member => by simp at member
      refine ⟨.string, (Piece.text content).token, rfl, Token.legible_string content .start, ?_,
        fun rest _ => Lexeme.cut_literal body rest⟩
      simp [token, Token.written, Token.rendered, Token.word, addend, literal, spelled]
  | reference name =>
      have isIdentifier := named.isIdentifier
      have legible : Token.Legible (.name name) .word := by
        have word : Token.Legible ⟨Kind.ofWord name.toList, some (String.ofList name.toList), .start⟩
            .word := Token.legible_word isIdentifier.bare.isWord
        rwa [isIdentifier.named, String.ofList_toList] at word
      exact ⟨.word, .name name, rfl, legible, rfl, fun rest => Lexeme.cut_identifier isIdentifier⟩

/-- The lexemes of the operands, each behind a plus sign, are those of their tokens. -/
theorem spelled_addends (named : Named pieces) :
    Token.Spelled (Lexeme.cut (pieces.flatMap fun piece => " + ".toList ++ piece.addend))
      (pieces.flatMap fun piece => .mark .plus :: piece.operand.tokens) := by
  induction pieces with
  | nil =>
      rw [List.flatMap_nil, Lexeme.cut]
      exact .finished
  | cons piece pieces ih =>
      obtain ⟨sort, token, only, legible, written, cut⟩ := exists_token named
      have nonempty : piece.addend ≠ [] := written ▸ legible.written_ne_nil
      have blank : ∀ char ∈ (pieces.flatMap fun piece => " + ".toList ++ piece.addend).head?,
          char = ' ' := by
        intro char first
        cases pieces with
        | nil => cases first
        | cons next others =>
            cases first
            rfl
      have solid (rest : List Char) :
          ∀ char ∈ (piece.addend ++ rest).head?, LexemeSort.isSeparator char = false := by
        rw [List.head?_append_of_ne_nil _ nonempty, ← written]
        exact legible.isSeparator_eq
      rw [List.flatMap_cons, List.flatMap_cons, only, List.append_assoc, Lexeme.cut_plus (solid _),
        cut _ blank, ← written]
      exact .blank (.token (Token.legible_symbol .plus) (.blank (.token legible (ih named.tail))))

/-- An added piece is put behind what is there. -/
theorem tokens_added {front : Expr} (tight : 4 ≤ front.level) (pieces : List Piece) :
    (added front pieces).tokens =
      front.tokens ++ pieces.flatMap fun piece => .mark .plus :: piece.operand.tokens := by
  induction pieces generalizing front with
  | nil => exact (List.append_nil _).symm
  | cons piece pieces ih =>
      have leftTight : ¬ front.level < BinaryOperator.add.rank.leftLevel := Nat.not_lt.mpr tight
      have rightTight : ¬ piece.operand.level < BinaryOperator.add.rank.level + 1 := by
        have level : piece.operand.level = 7 := by cases piece <;> rfl
        rw [level]
        decide
      have joined : (Expr.binary .add front piece.operand).tokens =
          front.tokens ++ .mark .plus :: piece.operand.tokens := by
        simp only [Expr.tokens, Expr.grouped, leftTight, rightTight, decide_false, if_false,
          Bool.false_eq_true]
        rfl
      have behind : (added front (piece :: pieces)).tokens =
          (added (.binary .add front piece.operand) pieces).tokens := rfl
      have summed : 4 ≤ (Expr.binary .add front piece.operand).level := Nat.le_refl 4
      rw [behind, ih summed, joined, List.flatMap_cons, List.append_assoc]

/-- The script of the sum shows its tree. -/
theorem shows_sum (named : Named pieces) :
    (Script.ofSource (sum pieces)).Shows 0 (Script.ofSource (sum pieces)).size
      (added (.string (.text "") []) pieces).tokens := by
  have empty : Token.Legible ⟨.stringLiteral, some "", .start⟩ .string :=
    Token.legible_string "" .start
  have cut : Lexeme.cut (sum pieces) = ⟨.string, literal []⟩ :: Lexeme.cut _ :=
    Lexeme.cut_literal .nil _
  rw [tokens_added (by decide)]
  refine Script.shows_of_content (Token.Spelled.content_eq ?_ .start)
  rw [cut]
  exact .token empty (spelled_addends named)

end Piece

end Onepass
