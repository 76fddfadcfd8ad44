import Mathlib.Data.List.DropRight
import Onepass.Proofs.Lexing.Placement
import Onepass.Proofs.Lexing.Recognition

/-! # Writing tokens and reading them again

A token is written by its spelling or its text, a piece of a literal in quotes of its own. Tokens that
were read from some source text, however broken, are read again from a page that has one of them on
each line: with the same kinds and texts, and without a stray character.
-/

set_option autoImplicit false

namespace Onepass

open Text (apostrophe doubleQuote trim EndsLine)

/-- The text with a backslash before each of the marked characters. -/
def Literal.escaped (marks : List Char) (text : List Char) : List Char :=
  text.flatMap fun char => if char ∈ marks then ['\\', char] else [char]

/-- The text between two quotes. -/
def Literal.enclosed (quote : Char) (inside : List Char) : List Char :=
  quote :: (inside ++ [quote])

namespace Token

/-- What a token is, apart from its position. -/
def content (token : Token) : Kind × Option String :=
  (token.kind, token.text)

/-- How the token is written. -/
def written (token : Token) : List Char :=
  match token.kind with
  | .symbol mark => mark.spelling.toList
  | .keyword word => word.spelling.toList
  | .numberLiteral | .booleanLiteral | .identifier | .arrayType => token.word.toList
  | .stringLiteral =>
    Literal.enclosed doubleQuote (Literal.escaped ['\\', doubleQuote, '$'] token.word.toList)
  | .charLiteral =>
    Literal.enclosed apostrophe (Literal.escaped ['\\', apostrophe] token.word.toList)
  | .reference =>
    Literal.enclosed doubleQuote ('$' :: '\x7b' :: (token.word.toList ++ ['\x7d']))
  | .endOfInput => []

/-- The tokens, each on a line of its own. The last line may be closed by a line feed too. -/
def page (closed : Bool) : List Token → List Char
  | [] => []
  | [token] => token.written ++ if closed then ['\n'] else []
  | token :: rest => token.written ++ '\n' :: page closed rest

end Token

/-! ## Trimmed texts -/

namespace Text

theorem trim_eq (text : List Char) : trim text = (text.dropWhile isBlank).rdropWhile isBlank :=
  rfl

/-- Trimming takes nothing but what is there. -/
theorem mem_of_mem_trim {char : Char} {text : List Char} (member : char ∈ trim text) : char ∈ text := by
  rw [trim_eq] at member
  exact (List.dropWhile_sublist isBlank).subset ((List.rdropWhile_prefix isBlank _).subset member)

/-- A trimmed text has nothing to trim. -/
theorem trim_trim (text : List Char) : trim (trim text) = trim text := by
  have solid : (trim text).dropWhile isBlank = trim text := by
    rw [trim_eq, List.dropWhile_eq_self_iff]
    intro nonempty
    have same := (List.rdropWhile_prefix isBlank (text.dropWhile isBlank)).getElem nonempty
    rw [same]
    exact List.dropWhile_get_zero_not isBlank text _
  rw [trim_eq (trim text), solid, trim_eq, List.rdropWhile_idempotent]

end Text

/-! ## Literals -/

namespace Literal

variable {quote : Char} {interpolates : Bool} {marks : List Char}

theorem escaped_cons_of_mem {char : Char} (mark : char ∈ marks) (chars : List Char) :
    escaped marks (char :: chars) = '\\' :: char :: escaped marks chars := by
  simp [escaped, mark]

theorem escaped_cons_of_not_mem {char : Char} (plain : char ∉ marks) (chars : List Char) :
    escaped marks (char :: chars) = char :: escaped marks chars := by
  simp [escaped, plain]

/-- An escaped text reaches to the quote behind it. -/
theorem quotedTail_escaped (isQuote : IsQuote quote) (backslash : '\\' ∈ marks) (marked : quote ∈ marks)
    (chars rest : List Char) :
    LexemeSort.quotedTail quote (escaped marks chars ++ quote :: rest) =
      (escaped marks chars).length + 1 := by
  induction chars with
  | nil => exact LexemeSort.quotedTail_closed isQuote.ne.1 rest
  | cons char chars ih =>
      by_cases mark : char ∈ marks
      · rw [escaped_cons_of_mem mark, List.cons_append, List.cons_append, LexemeSort.quotedTail, ih,
          List.length_cons, List.length_cons]
        omega
      · rw [escaped_cons_of_not_mem mark, List.cons_append,
          LexemeSort.quotedTail_plain (ne_of_mem_of_not_mem marked mark).symm
            (ne_of_mem_of_not_mem backslash mark).symm, ih, List.length_cons]
        omega

/-- An escaped text is read as the text. -/
theorem items_escaped (isQuote : IsQuote quote) (backslash : '\\' ∈ marks) (marked : quote ∈ marks)
    (dollar : interpolates = true → '$' ∈ marks)
    (known : ∀ char ∈ marks, unescaped char = char) (chars rest : List Char) (position : Position) :
    items quote interpolates position (escaped marks chars ++ quote :: rest) = chars.map .char := by
  induction chars generalizing position with
  | nil => exact items_closed isQuote position rest
  | cons char chars ih =>
      by_cases mark : char ∈ marks
      · rw [escaped_cons_of_mem mark, List.cons_append, List.cons_append, items_escape, ih,
          known char mark]
        rfl
      · have unescaped : char ≠ '\\' := (ne_of_mem_of_not_mem backslash mark).symm
        have bare (allowed : interpolates = true) : char ≠ '$' :=
          (ne_of_mem_of_not_mem (dollar allowed) mark).symm
        rw [escaped_cons_of_not_mem mark, List.cons_append,
          items_plain isQuote (ne_of_mem_of_not_mem marked mark).symm
            (fun same => absurd same unescaped) (fun allowed same => absurd same (bare allowed)), ih]
        rfl

theorem reference_mem_items {position place : Position} {text name : List Char}
    (member : .reference name place ∈ items quote interpolates position text) :
    ∃ inside, name = trim inside ∧ ∀ char ∈ inside, char ≠ '\x7d' ∧ char ≠ quote := by
  fun_induction items quote interpolates position text with
  | case1 => cases member
  | case2 position char rest ih => exact ih (by simpa using member)
  | case3 position rest inside allowed ih =>
      rcases List.mem_cons.mp member with same | member
      · obtain ⟨rfl, -⟩ := Item.reference.inj same
        exact ⟨_, rfl, fun char inner => by simpa using List.mem_takeWhile_imp inner⟩
      · exact ih member
  | case4 position rest inside off ih => exact ih (by simpa using member)
  | case5 => cases member
  | case6 position char rest _ _ _ ih => exact ih (by simpa using member)

theorem reference_mem_pieces {place : Position} {name : List Char} {items : List Item}
    (member : .reference name place ∈ pieces items) : .reference name place ∈ items := by
  fun_induction pieces items with
  | case1 => cases member
  | case2 other position rest ih =>
      rcases List.mem_cons.mp member with same | member
      · cases same
        exact List.mem_cons_self
      · exact List.mem_cons_of_mem _ (ih member)
  | case3 char rest chars others joined ih =>
      refine List.mem_cons_of_mem _ (ih ?_)
      rw [joined]
      simpa using member
  | case4 char rest _ ih => exact List.mem_cons_of_mem _ (ih (by simpa using member))

/-- A literal whose text is escaped is read as one token, with the text. -/
theorem tokens_escaped (isQuote : IsQuote quote) (backslash : '\\' ∈ marks) (marked : quote ∈ marks)
    (dollar : interpolates = true → '$' ∈ marks) (known : ∀ char ∈ marks, unescaped char = char)
    (kind : Kind) (chars : List Char) (position : Position) :
    tokens kind interpolates position (enclosed quote (escaped marks chars)) =
      [⟨kind, some (String.ofList chars), position⟩] := by
  change tokensOf _ _ (pieces (items _ _ _ _)) = _
  rw [items_escaped isQuote backslash marked dollar known, tokensOf_chars]

/-- A token of a string literal is a piece of its text or a reference, whose name holds neither a
closing brace nor the quote. -/
theorem mem_tokens {kind : Kind} {position : Position} {text : List Char} {token : Token}
    (member : token ∈ tokens kind interpolates position (quote :: text)) :
    (∃ piece, token = ⟨kind, some piece, position⟩) ∨
      ∃ inside place, token = ⟨.reference, some (String.ofList (trim inside)), place⟩ ∧
        ∀ char ∈ inside, char ≠ '\x7d' ∧ char ≠ quote := by
  change token ∈ tokensOf _ _ _ at member
  unfold tokensOf at member
  split at member
  · obtain rfl := List.mem_singleton.mp member
    exact .inl ⟨_, rfl⟩
  · obtain ⟨piece, found, rfl⟩ := List.mem_map.mp member
    cases piece with
    | text chars => exact .inl ⟨_, rfl⟩
    | reference name place =>
        obtain ⟨inside, rfl, inner⟩ := reference_mem_items (reference_mem_pieces found)
        exact .inr ⟨inside, place, rfl, inner⟩

end Literal

/-! ## Single tokens -/

/-- Written at the end of a line, the token is recognised as one lexeme that gives it again, whatever
stands on the lines behind it. -/
structure Token.Legible (token : Token) (sort : LexemeSort) : Prop where
  speaks : sort.isSilent = false
  recognised : ∀ rest, EndsLine rest → .ofText (token.written ++ rest) = sort
  extent : ∀ rest, EndsLine rest → sort.extent (token.written ++ rest) = token.written.length
  gives : ∀ position, (Lexeme.tokens position ⟨sort, token.written⟩).map content = [token.content]

namespace Token

variable {text : List Char} {position : Position}

theorem legible_number (isNumber : LexemeSort.IsNumber text) :
    Legible ⟨.numberLiteral, some (String.ofList text), position⟩ .number := by
  have same : written ⟨.numberLiteral, some (String.ofList text), position⟩ = text :=
    String.toList_ofList
  constructor
  · rfl
  · intro rest ended
    rw [same, isNumber.ofText_eq (LexemeSort.closesNumber_of_endsLine ended)]
  · intro rest ended
    rw [same]
    exact isNumber.extent_eq (LexemeSort.closesNumber_of_endsLine ended)
  · intro place
    rw [same]
    rfl

/-- A word is written as it is, whatever its kind. -/
theorem written_ofWord (text : List Char) (position : Position) :
    written ⟨Kind.ofWord text, some (String.ofList text), position⟩ = text := by
  unfold Kind.ofWord
  split
  · exact String.toList_ofList
  · split
    · exact String.toList_ofList
    · split
      case _ word found =>
        have same : word.spelling = String.ofList text := by simpa using List.find?_some found
        exact (congrArg String.toList same).trans String.toList_ofList
      case _ => exact String.toList_ofList

theorem legible_word (isWord : LexemeSort.IsWord text) :
    Legible ⟨Kind.ofWord text, some (String.ofList text), position⟩ .word := by
  have same := written_ofWord text position
  constructor
  · rfl
  · intro rest ended
    rw [same, isWord.ofText_eq ended]
  · intro rest ended
    rw [same]
    exact isWord.extent_eq ended
  · intro place
    rw [same]
    rfl

theorem legible_elseIf :
    Legible ⟨.keyword .elseIfWord, some Keyword.elseIfWord.spelling, position⟩ .elseIf := by
  have extent (rest : List Char) (ended : EndsLine rest) :
      LexemeSort.elseIfExtent ("else if".toList ++ rest) = 7 := by
    have unextended : (rest.head?.map Text.isWordPart).getD false = false := by
      cases rest with
      | nil => rfl
      | cons first behind => rw [ended first rfl]; rfl
    change LexemeSort.elseIfExtent ('e' :: 'l' :: 's' :: 'e' :: ' ' :: 'i' :: 'f' :: rest) = 7
    simp [LexemeSort.elseIfExtent, LexemeSort.runLength, LexemeSort.isInlineBlank, unextended]
  constructor
  · rfl
  · intro rest ended
    refine LexemeSort.ofText_of_first (show LexemeSort.all = [] ++ _ from rfl) ?_
      (List.forall_mem_nil _)
    exact Nat.lt_of_lt_of_eq (by decide) (extent rest ended).symm
  · exact extent
  · exact fun place => rfl

theorem legible_symbol (mark : Symbol) : Legible ⟨.symbol mark, none, position⟩ (.symbol mark) := by
  have recognised (rest : List Char) (ended : EndsLine rest) :
      LexemeSort.ofText (mark.spelling.toList ++ rest) = .symbol mark := by
    cases rest with
    | nil => cases mark <;> rfl
    | cons first behind =>
        rw [ended first rfl]
        cases mark <;> rfl
  constructor
  · rfl
  · exact recognised
  · intro rest _
    simp [LexemeSort.extent, LexemeSort.symbolExtent, written, String.length_toList]
  · exact fun place => rfl

/-- A text between quotes is recognised if nothing in it closes it. -/
theorem legible_enclosed {token : Token} {sort : LexemeSort} {quote : Char} {inside : List Char}
    (shape : token.written = Literal.enclosed quote inside) (speaks : sort.isSilent = false)
    (sorted : ∀ rest, .ofText (quote :: rest) = sort)
    (measured : sort.extent = LexemeSort.quotedExtent quote)
    (unclosed : ∀ rest, LexemeSort.quotedTail quote (inside ++ quote :: rest) = inside.length + 1)
    (gives : ∀ position, (Lexeme.tokens position ⟨sort, token.written⟩).map content = [token.content]) :
    token.Legible sort := by
  have unfolded (rest : List Char) :
      Literal.enclosed quote inside ++ rest = quote :: (inside ++ quote :: rest) := by
    simp [Literal.enclosed]
  refine ⟨speaks, fun rest _ => ?_, fun rest _ => ?_, gives⟩
  · rw [shape, unfolded]
    exact sorted _
  · rw [shape, unfolded, measured, LexemeSort.quotedExtent, if_pos (beq_self_eq_true quote), unclosed]
    simp [Literal.enclosed]
    omega

theorem legible_string (text : String) (position : Position) :
    Legible ⟨.stringLiteral, some text, position⟩ .string := by
  have isQuote : Literal.IsQuote doubleQuote := .inl rfl
  have known : ∀ char ∈ ['\\', doubleQuote, '$'], Literal.unescaped char = char := by
    simp only [List.forall_mem_cons]
    exact ⟨rfl, rfl, rfl, by simp⟩
  refine legible_enclosed rfl rfl LexemeSort.ofText_doubleQuote rfl
    (Literal.quotedTail_escaped isQuote (by simp) (by simp) _) fun place => ?_
  change (Literal.tokens _ _ _ (Literal.enclosed _ _)).map content = _
  rw [Literal.tokens_escaped isQuote (by simp) (by simp) (by simp) known]
  simp [content, word]

theorem legible_char (text : String) (position : Position) :
    Legible ⟨.charLiteral, some text, position⟩ .char := by
  have isQuote : Literal.IsQuote apostrophe := .inr rfl
  have known : ∀ char ∈ ['\\', apostrophe], Literal.unescaped char = char := by
    simp only [List.forall_mem_cons]
    exact ⟨rfl, rfl, by simp⟩
  refine legible_enclosed rfl rfl LexemeSort.ofText_apostrophe rfl
    (Literal.quotedTail_escaped isQuote (by simp) (by simp) _) fun place => ?_
  change (Literal.tokens _ _ _ (Literal.enclosed _ _)).map content = _
  rw [Literal.tokens_escaped isQuote (by simp) (by simp) (by simp) known]
  simp [content, word]

theorem legible_reference {inside : List Char}
    (inner : ∀ char ∈ inside, char ≠ '\x7d' ∧ char ≠ doubleQuote) (position : Position) :
    Legible ⟨.reference, some (String.ofList (trim inside)), position⟩ .string := by
  have isQuote : Literal.IsQuote doubleQuote := .inl rfl
  have trimmed : ∀ char ∈ trim inside, char ≠ '\x7d' ∧ char ≠ doubleQuote :=
    fun char member => inner char (Text.mem_of_mem_trim member)
  have shape : written ⟨.reference, some (String.ofList (trim inside)), position⟩ =
      Literal.enclosed doubleQuote ('$' :: '\x7b' :: (trim inside ++ ['\x7d'])) := by
    simp [written, word]
  refine legible_enclosed shape rfl LexemeSort.ofText_doubleQuote rfl (fun rest => ?_) fun place => ?_
  · rw [List.cons_append, List.cons_append, LexemeSort.quotedTail_plain (by decide) (by decide),
      LexemeSort.quotedTail_plain (by decide) (by decide), List.append_assoc, List.singleton_append,
      LexemeSort.quotedTail_name isQuote fun member => (trimmed _ member).2 rfl]
    simp
    omega
  · rw [shape]
    change (Literal.tokensOf _ _ (Literal.pieces (Literal.items _ _ _ ('$' :: '\x7b' ::
      (trim inside ++ ['\x7d'] ++ [doubleQuote]))))).map content = _
    rw [Literal.items_reference isQuote trimmed (.inl rfl), Literal.items_closed isQuote,
      Text.trim_trim]
    rfl

end Token

/-! ## All tokens of a source text -/

theorem Lexeme.mem_cut {source : List Char} {lexeme : Lexeme} (member : lexeme ∈ cut source) :
    ∃ text, text ≠ [] ∧ lexeme = ⟨.ofText text, text.take ((LexemeSort.ofText text).extent text)⟩ := by
  fun_induction cut source with
  | case1 => cases member
  | case2 char rest sort length ih =>
      rcases List.mem_cons.mp member with rfl | member
      · exact ⟨char :: rest, List.cons_ne_nil _ _, rfl⟩
      · exact ih member

theorem Lexeme.mem_of_mem_placed {position : Position} {lexemes : List Lexeme}
    {entry : Position × Lexeme} (member : entry ∈ placed position lexemes) : entry.2 ∈ lexemes := by
  induction lexemes generalizing position with
  | nil => cases member
  | cons lexeme rest ih =>
      rcases List.mem_cons.mp member with rfl | member
      · exact List.mem_cons_self
      · exact List.mem_cons_of_mem _ (ih member)

/-- A token of a lexeme that was recognised in some text is legible. -/
theorem Lexeme.legible {text : List Char} {position : Position} {token : Token} (nonempty : text ≠ [])
    (member : token ∈ tokens position
      ⟨.ofText text, text.take ((LexemeSort.ofText text).extent text)⟩) :
    ∃ sort, token.Legible sort := by
  have matched := LexemeSort.extent_ofText_pos nonempty
  generalize found : LexemeSort.ofText text = sort at member matched
  cases sort with
  | number =>
      obtain rfl := List.mem_singleton.mp member
      exact ⟨_, Token.legible_number (LexemeSort.isNumber_take matched)⟩
  | word =>
      obtain rfl := List.mem_singleton.mp member
      exact ⟨_, Token.legible_word (LexemeSort.isWord_take found)⟩
  | elseIf =>
      obtain rfl := List.mem_singleton.mp member
      exact ⟨_, Token.legible_elseIf⟩
  | symbol mark =>
      obtain rfl := List.mem_singleton.mp member
      exact ⟨_, Token.legible_symbol mark⟩
  | string =>
      obtain ⟨rest, shape⟩ := LexemeSort.take_quotedExtent matched
      change text.take (LexemeSort.string.extent text) = _ at shape
      rw [shape] at member
      rcases Literal.mem_tokens member with ⟨piece, rfl⟩ | ⟨inside, place, rfl, inner⟩
      · exact ⟨_, Token.legible_string piece position⟩
      · exact ⟨_, Token.legible_reference inner place⟩
  | char =>
      obtain ⟨rest, shape⟩ := LexemeSort.take_quotedExtent matched
      change text.take (LexemeSort.char.extent text) = _ at shape
      obtain ⟨chars, given⟩ := tokens_char rest position
      rw [shape, given] at member
      obtain rfl := List.mem_singleton.mp member
      exact ⟨_, Token.legible_char _ position⟩
  | lineComment | blockComment | blank | stray => cases member

theorem Token.legible_of_mem {source : List Char} {token : Token} (member : token ∈ proper source) :
    ∃ sort, token.Legible sort := by
  obtain ⟨entry, placed, given⟩ := List.mem_flatMap.mp member
  obtain ⟨text, nonempty, same⟩ := Lexeme.mem_cut (Lexeme.mem_of_mem_placed placed)
  rw [same] at given
  exact Lexeme.legible nonempty given

/-! ## Pages -/

namespace Token

variable {token : Token} {sort : LexemeSort} {rest : List Char}

theorem Legible.written_ne_nil (legible : token.Legible sort) : token.written ≠ [] := by
  intro empty
  have stray := legible.recognised [] Text.endsLine_nil
  rw [empty] at stray
  have speaks := legible.speaks
  rw [← stray] at speaks
  cases speaks

theorem Legible.cut_eq (legible : token.Legible sort) (ended : EndsLine rest) :
    Lexeme.cut (token.written ++ rest) = ⟨sort, token.written⟩ :: Lexeme.cut rest :=
  Lexeme.cut_of_recognised legible.written_ne_nil (legible.recognised rest ended)
    (legible.extent rest ended)

/-- A token does not begin with white space. -/
theorem Legible.isSeparator_eq (legible : token.Legible sort) :
    ∀ char ∈ token.written.head?, LexemeSort.isSeparator char = false := by
  intro char first
  rw [Bool.eq_false_iff]
  intro separates
  obtain ⟨more, shape⟩ := List.head?_eq_some_iff.mp first
  have recognised := legible.recognised [] Text.endsLine_nil
  have speaks := legible.speaks
  rw [shape, List.cons_append, LexemeSort.ofText_separator separates] at recognised
  rw [← recognised] at speaks
  cases speaks

/-- A line feed before a token or at the end is a lexeme of its own. -/
theorem cut_lineFeed (solid : ∀ char ∈ rest.head?, LexemeSort.isSeparator char = false) :
    Lexeme.cut ('\n' :: rest) = ⟨.blank, ['\n']⟩ :: Lexeme.cut rest := by
  have extent : LexemeSort.blank.extent (['\n'] ++ rest) = ['\n'].length :=
    LexemeSort.runLength_append (List.forall_mem_singleton.mpr rfl) solid
  exact Lexeme.cut_of_recognised (List.cons_ne_nil _ _) (LexemeSort.ofText_separator rfl rest) extent

/-- The lexemes are those of the tokens, with blanks between them. -/
inductive Spelled : List Lexeme → List Token → Prop
  | finished : Spelled [] []
  | blank {text : List Char} {lexemes : List Lexeme} {tokens : List Token}
      (behind : Spelled lexemes tokens) : Spelled (⟨.blank, text⟩ :: lexemes) tokens
  | token {token : Token} {sort : LexemeSort} {lexemes : List Lexeme} {tokens : List Token}
      (legible : token.Legible sort) (behind : Spelled lexemes tokens) :
      Spelled (⟨sort, token.written⟩ :: lexemes) (token :: tokens)

theorem isSeparator_page (closed : Bool) {tokens : List Token}
    (legible : ∀ token ∈ tokens, ∃ sort, token.Legible sort) :
    ∀ char ∈ (page closed tokens).head?, LexemeSort.isSeparator char = false := by
  cases tokens with
  | nil => nofun
  | cons token rest =>
      obtain ⟨sort, first⟩ := legible token List.mem_cons_self
      have shape : ∃ behind, page closed (token :: rest) = token.written ++ behind := by
        cases rest with
        | nil => exact ⟨_, rfl⟩
        | cons next rest => exact ⟨_, rfl⟩
      obtain ⟨behind, shape⟩ := shape
      rw [shape, List.head?_append_of_ne_nil _ first.written_ne_nil]
      exact first.isSeparator_eq

/-- A page is cut at the ends of its tokens. -/
theorem spelled_page (closed : Bool) {tokens : List Token}
    (legible : ∀ token ∈ tokens, ∃ sort, token.Legible sort) :
    Spelled (Lexeme.cut (page closed tokens)) tokens := by
  fun_induction page closed tokens with
  | case1 =>
      rw [Lexeme.cut]
      exact .finished
  | case2 token =>
      obtain ⟨sort, only⟩ := legible token List.mem_cons_self
      cases closed with
      | true =>
          rw [if_pos rfl, only.cut_eq (Text.endsLine_lineFeed _), cut_lineFeed (by simp), Lexeme.cut]
          exact .token only (.blank .finished)
      | false =>
          rw [if_neg (by simp), only.cut_eq Text.endsLine_nil, Lexeme.cut]
          exact .token only .finished
  | case3 token rest _ ih =>
      obtain ⟨sort, first⟩ := legible token List.mem_cons_self
      have others : ∀ token ∈ rest, ∃ sort, token.Legible sort :=
        fun token member => legible token (List.mem_cons_of_mem _ member)
      rw [first.cut_eq (Text.endsLine_lineFeed _), cut_lineFeed (isSeparator_page closed others)]
      exact .token first (.blank (ih others))

/-- What is read from the lexemes of tokens has the contents of the tokens. -/
theorem Spelled.content_eq {lexemes : List Lexeme} {tokens : List Token}
    (spelled : Spelled lexemes tokens) (position : Position) :
    ((Lexeme.placed position lexemes).flatMap fun entry => entry.2.tokens entry.1).map content =
      tokens.map content := by
  induction spelled generalizing position with
  | finished => rfl
  | @blank text _ _ _ ih => exact ih (position.after text)
  | @token token sort _ _ legible _ ih =>
      rw [Lexeme.placed, List.flatMap_cons, List.map_append, legible.gives, ih]
      rfl

theorem Spelled.sort_ne_stray {lexemes : List Lexeme} {tokens : List Token}
    (spelled : Spelled lexemes tokens) : ∀ lexeme ∈ lexemes, lexeme.sort ≠ .stray := by
  induction spelled with
  | finished => exact List.forall_mem_nil _
  | blank _ ih => exact List.forall_mem_cons.mpr ⟨nofun, ih⟩
  | token legible _ ih =>
      refine List.forall_mem_cons.mpr ⟨?_, ih⟩
      rintro rfl
      cases legible.speaks

end Token

/-- Tokens can be written and read again. Whatever the source text is, its tokens written one on a
line are read, strictly or not, as the same kinds and texts. -/
theorem Script.read_page (source : String) (strict closed : Bool) :
    ∃ script again, read false source = .ok script ∧
      read strict (String.ofList (Token.page closed script.tokens.toList)) = .ok again ∧
      again.allTokens.map Token.content = script.allTokens.map Token.content := by
  have legible : ∀ token ∈ Token.proper source.toList, ∃ sort, token.Legible sort :=
    fun token => Token.legible_of_mem
  have spelled := Token.spelled_page closed legible
  generalize written : Token.page closed (Token.proper source.toList) = page at spelled
  have clean : Token.firstStray? (String.ofList page).toList = none := by
    rw [String.toList_ofList]
    rcases firstStray_cases page with ⟨-, absent⟩ | ⟨before, char, behind, split, -, -⟩
    · exact absent
    · refine absurd rfl (spelled.sort_ne_stray ⟨.stray, [char]⟩ ?_)
      simp [split]
  refine ⟨.ofSource source.toList, .ofSource page, rfl, ?_, ?_⟩
  · change read strict (String.ofList (Token.page closed (Token.proper source.toList))) = _
    rw [written, read_of_clean clean, String.toList_ofList]
  · rw [allTokens, allTokens, List.map_append, List.map_append]
    exact congrArg (· ++ _) (spelled.content_eq .start)

/-- An unclosed literal is closed, and the blanks around a name are gone. -/
example : String.ofList (Token.page false (Token.proper "x=\"a$\x7b b \x7d".toList)) =
    "x\n=\n\"a\"\n\"$\x7bb\x7d\"" := by
  decide +kernel

end Onepass
