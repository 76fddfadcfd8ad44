import Onepass.Proofs.Lexing.Layout
import Onepass.Script.Basic

/-! # Where tokens stand

A source text is read as consecutive lexemes, each of which gives its tokens. This is said by a
relation between the source text, the offset of a lexeme, the lexemes from there on and the tokens that
they give: nothing of the source is left out or read twice, and every token has the position of its
lexeme. Only a reference has a position of its own, behind the dollar sign and the brace that begin it.
-/

set_option autoImplicit false

namespace Onepass

open Text (apostrophe doubleQuote)

/-- Whether lexemes of the sort give no tokens: blanks, comments and stray characters. -/
def LexemeSort.isSilent : LexemeSort → Bool
  | .lineComment | .blockComment | .blank | .stray => true
  | _ => false

/-- The tokens that a lexeme at an offset of the source text gives: none, one at the position of the
lexeme or, for a string literal, pieces of text at the position of the literal with the references
between them. -/
inductive Lexeme.Gives (source : List Char) (offset : Nat) : Lexeme → List Token → Prop
  | silent {lexeme : Lexeme} (silent : lexeme.sort.isSilent = true) : Gives source offset lexeme []
  | single {lexeme : Lexeme} {token : Token} (speaks : lexeme.sort.isSilent = false)
      (other : lexeme.sort ≠ .string) (plain : token.kind ≠ .reference)
      (placed : token.position = .inText source offset) : Gives source offset lexeme [token]
  | literal {text : List Char} {parts : List Literal.Part} {tokens : List Token}
      (layout : Literal.Layout doubleQuote true text parts) (nonempty : tokens ≠ [])
      (placed : ∀ token ∈ tokens, token.kind ≠ .reference → token.position = .inText source offset)
      (references : tokens.filter (fun token => token.kind = .reference) =
        (Literal.referencesOf (offset + 1) parts).map (Literal.referenceToken source)) :
      Gives source offset ⟨.string, doubleQuote :: text⟩ tokens

/-- From an offset on, the source text is read as the lexemes, which give the tokens. At each offset
the first sort that matches there tells how far the lexeme reaches. -/
inductive Reading (source : List Char) : Nat → List Lexeme → List Token → Prop
  | finished : Reading source source.length [] []
  | lexeme {offset : Nat} {lexeme : Lexeme} {rest : List Lexeme} {tokens : List Token}
      (sort : lexeme.sort = .ofText (source.drop offset))
      (text : lexeme.text = (source.drop offset).take (lexeme.sort.extent (source.drop offset)))
      (nonempty : lexeme.text ≠ [])
      (gives : lexeme.Gives source offset (lexeme.tokens (.inText source offset)))
      (behind : Reading source (offset + lexeme.text.length) rest tokens) :
      Reading source offset (lexeme :: rest) (lexeme.tokens (.inText source offset) ++ tokens)

/-! ## The tokens of one lexeme -/

theorem LexemeSort.take_quotedExtent {quote : Char} {text : List Char}
    (matched : 0 < quotedExtent quote text) :
    ∃ rest, text.take (quotedExtent quote text) = quote :: rest := by
  cases text with
  | nil => cases matched
  | cons first rest =>
      by_cases opened : first = quote
      · have extent : quotedExtent quote (first :: rest) = quotedTail quote rest + 1 := by
          simp [quotedExtent, opened, Nat.add_comm]
        rw [extent, List.take_succ_cons, opened]
        exact ⟨_, rfl⟩
      · simp [quotedExtent, opened] at matched

/-- A word is never a reference, nor the end of the script. -/
theorem Kind.ofWord_ne (word : List Char) : ofWord word ≠ .reference ∧ ofWord word ≠ .endOfInput := by
  unfold ofWord
  split
  · simp
  · split
    · simp
    · split <;> simp

namespace Lexeme

variable {source before : List Char}

theorem gives_literal {text : List Char} (initial : before ++ doubleQuote :: text <+: source) :
    Gives source before.length ⟨.string, doubleQuote :: text⟩
      (tokens (Position.start.after before) ⟨.string, doubleQuote :: text⟩) := by
  have isQuote : Literal.IsQuote doubleQuote := .inl rfl
  obtain ⟨parts, layout⟩ := Literal.exists_layout isQuote true .start text
  obtain ⟨unread, whole⟩ := layout.text_eq
  have opened : (Position.start.after before).next doubleQuote =
      Position.start.after (before ++ [doubleQuote]) := by
    rw [Position.after_append]
    rfl
  have read : before ++ [doubleQuote] ++ parts.flatMap Literal.Part.text <+: source := by
    refine List.IsPrefix.trans ⟨unread, ?_⟩ initial
    rw [whole]
    simp
  refine .literal layout (Literal.tokensOf_ne_nil _ _ _) ?_ ?_
  · intro token member plain
    rw [← Position.start_after_initial ((List.prefix_append _ _).trans initial)]
    exact Literal.position_of_tokensOf member plain
  · change (Literal.tokensOf _ _ _).filter _ = _
    rw [Literal.filter_tokensOf (by simp), Literal.references_pieces, opened,
      layout.items_eq isQuote, Literal.references_itemsOf _ _ read, List.length_append]
    rfl

theorem tokens_char (text : List Char) (position : Position) :
    ∃ chars : List Char, tokens position ⟨.char, apostrophe :: text⟩ =
      [⟨.charLiteral, some (String.ofList chars), position⟩] := by
  have isQuote : Literal.IsQuote apostrophe := .inr rfl
  obtain ⟨parts, layout⟩ := Literal.exists_layout isQuote false .start text
  obtain ⟨chars, same⟩ := layout.itemsOf_eq (position.next apostrophe)
  refine ⟨chars, ?_⟩
  change Literal.tokensOf _ _ _ = _
  rw [layout.items_eq isQuote, same, Literal.tokensOf_chars]

/-- A lexeme that was matched gives its tokens at its offset. -/
theorem gives {text : List Char} {sort : LexemeSort} (split : source = before ++ text)
    (matched : 0 < sort.extent text) :
    Gives source before.length ⟨sort, text.take (sort.extent text)⟩
      (tokens (.inText source before.length) ⟨sort, text.take (sort.extent text)⟩) := by
  have place : Position.start.after before = .inText source before.length :=
    Position.start_after_initial ⟨text, split.symm⟩
  rw [← place]
  cases sort with
  | string =>
      have initial : before ++ text.take (LexemeSort.string.extent text) <+: source := by
        rw [split]
        exact (List.prefix_append_right_inj before).mpr (List.take_prefix _ text)
      obtain ⟨inside, shape⟩ := LexemeSort.take_quotedExtent matched
      change text.take (LexemeSort.string.extent text) = _ at shape
      rw [shape] at initial ⊢
      exact gives_literal initial
  | char =>
      obtain ⟨inside, shape⟩ := LexemeSort.take_quotedExtent matched
      change text.take (LexemeSort.char.extent text) = _ at shape
      obtain ⟨chars, given⟩ := tokens_char inside (Position.start.after before)
      rw [shape, given]
      exact .single rfl nofun nofun place
  | word => exact .single rfl nofun (Kind.ofWord_ne _).1 place
  | elseIf | number | symbol => exact .single rfl nofun nofun place
  | lineComment | blockComment | blank | stray => exact .silent rfl

theorem kind_ne_endOfInput {position : Position} {lexeme : Lexeme} {token : Token}
    (member : token ∈ lexeme.tokens position) : token.kind ≠ .endOfInput := by
  have literal (kind : Kind) (other : kind ≠ .endOfInput) {found : List Literal.Piece}
      (member : token ∈ Literal.tokensOf kind position found) : token.kind ≠ .endOfInput := by
    unfold Literal.tokensOf at member
    split at member
    · obtain rfl := List.mem_singleton.mp member
      exact other
    · obtain ⟨piece, -, rfl⟩ := List.mem_map.mp member
      cases piece with
      | text chars => exact other
      | reference name place => nofun
  obtain ⟨sort, text⟩ := lexeme
  cases sort with
  | string =>
      cases text with
      | nil => cases member
      | cons quote inside => exact literal .stringLiteral nofun member
  | char =>
      cases text with
      | nil => cases member
      | cons quote inside => exact literal .charLiteral nofun member
  | word =>
      obtain rfl := List.mem_singleton.mp member
      exact (Kind.ofWord_ne _).2
  | elseIf | number | symbol =>
      obtain rfl := List.mem_singleton.mp member
      nofun
  | lineComment | blockComment | blank | stray => cases member

end Lexeme

/-! ## Whole source texts -/

theorem reading_cut {source : List Char} (before text : List Char) (split : source = before ++ text) :
    Reading source before.length (Lexeme.cut text)
      ((Lexeme.placed (Position.start.after before) (Lexeme.cut text)).flatMap
        fun entry => entry.2.tokens entry.1) := by
  fun_induction Lexeme.cut text generalizing before
  case case1 =>
    rw [split, List.append_nil]
    exact .finished
  case case2 char rest sort length ih =>
    have matched : 0 < length := LexemeSort.extent_ofText_pos (List.cons_ne_nil char rest)
    have drop : source.drop before.length = char :: rest := by
      rw [split, List.drop_left]
    have nonempty : 0 < ((char :: rest).take length).length := by
      rw [List.length_take, List.length_cons]
      omega
    have place : Position.start.after before = .inText source before.length :=
      Position.start_after_initial ⟨char :: rest, split.symm⟩
    have following := ih (before ++ (char :: rest).take length)
      (by rw [split, List.append_assoc, List.take_append_drop])
    rw [Position.after_append, List.length_append] at following
    rw [Lexeme.placed, List.flatMap_cons, place]
    rw [place] at following
    exact .lexeme (by rw [drop]) (by rw [drop]) (List.ne_nil_of_length_pos nonempty)
      (Lexeme.gives split matched) following

theorem reading_proper (source : List Char) :
    Reading source 0 (Lexeme.cut source) (Token.proper source) :=
  reading_cut [] source rfl

/-- A stray lexeme is a single character. -/
theorem Reading.stray_text {source : List Char} {offset : Nat} {lexemes : List Lexeme}
    {tokens : List Token} (reading : Reading source offset lexemes tokens) {lexeme : Lexeme}
    (member : lexeme ∈ lexemes) (stray : lexeme.sort = .stray) : ∃ char, lexeme.text = [char] := by
  induction reading with
  | finished => cases member
  | @lexeme offset first rest _ _ text nonempty _ _ ih =>
      rcases List.mem_cons.mp member with rfl | later
      · have short : lexeme.text.length ≤ 1 := by
          rw [text, stray, List.length_take]
          exact (Nat.min_le_left _ _).trans (Nat.min_le_left _ _)
        exact List.length_eq_one_iff.mp
          (Nat.le_antisymm short (List.length_pos_iff.mpr nonempty))
      · exact ih later

/-- The stray character that a lexeme at a position is. -/
def Lexeme.stray? (entry : Position × Lexeme) : Option StrayCharacter :=
  match entry.2.sort, entry.2.text with
  | .stray, char :: _ => some ⟨char, entry.1⟩
  | _, _ => none

theorem Lexeme.stray?_eq_none {entry : Position × Lexeme} (other : entry.2.sort ≠ .stray) :
    stray? entry = none := by
  unfold stray?
  split
  case _ stray _ => exact absurd stray other
  case _ => rfl

/-- Looking for a stray character finds none where there is none, and otherwise the first one. -/
theorem findSome_stray (before : List Char) {lexemes : List Lexeme}
    (single : ∀ lexeme ∈ lexemes, lexeme.sort = .stray → ∃ char, lexeme.text = [char]) :
    ((∀ lexeme ∈ lexemes, lexeme.sort ≠ .stray) ∧
        (Lexeme.placed (Position.start.after before) lexemes).findSome? Lexeme.stray? = none) ∨
      ∃ earlier char later, lexemes = earlier ++ ⟨.stray, [char]⟩ :: later ∧
        (∀ lexeme ∈ earlier, lexeme.sort ≠ .stray) ∧
        (Lexeme.placed (Position.start.after before) lexemes).findSome? Lexeme.stray? =
          some ⟨char, Position.start.after (before ++ earlier.flatMap Lexeme.text)⟩ := by
  induction lexemes generalizing before with
  | nil => exact .inl ⟨List.forall_mem_nil _, rfl⟩
  | cons lexeme rest ih =>
      by_cases stray : lexeme.sort = .stray
      · obtain ⟨sort, text⟩ := lexeme
        obtain ⟨char, rfl⟩ := single _ List.mem_cons_self stray
        obtain rfl : sort = .stray := stray
        refine .inr ⟨[], char, rest, rfl, List.forall_mem_nil _, ?_⟩
        rw [List.flatMap_nil, List.append_nil]
        rfl
      · have first : Lexeme.stray? (Position.start.after before, lexeme) = none :=
          Lexeme.stray?_eq_none stray
        have later := ih (before ++ lexeme.text) fun other member =>
          single other (List.mem_cons_of_mem _ member)
        rw [Position.after_append] at later
        rw [Lexeme.placed, List.findSome?_cons, first]
        rcases later with ⟨others, none⟩ | ⟨earlier, char, behind, split, others, found⟩
        · exact .inl ⟨List.forall_mem_cons.mpr ⟨stray, others⟩, none⟩
        · refine .inr ⟨lexeme :: earlier, char, behind, by rw [split]; rfl,
            List.forall_mem_cons.mpr ⟨stray, others⟩, ?_⟩
          rw [List.flatMap_cons, ← List.append_assoc]
          exact found

/-- The first stray character is found at its position, if there is one. -/
theorem firstStray_cases (source : List Char) :
    ((∀ lexeme ∈ Lexeme.cut source, lexeme.sort ≠ .stray) ∧ Token.firstStray? source = none) ∨
      ∃ before char behind, Lexeme.cut source = before ++ ⟨.stray, [char]⟩ :: behind ∧
        (∀ lexeme ∈ before, lexeme.sort ≠ .stray) ∧
        Token.firstStray? source =
          some ⟨char, .inText source (before.flatMap Lexeme.text).length⟩ := by
  refine (findSome_stray [] fun _ member => (reading_proper source).stray_text member).imp_right ?_
  rintro ⟨before, char, behind, split, none, found⟩
  have initial : before.flatMap Lexeme.text <+: source := by
    refine ⟨(⟨.stray, [char]⟩ :: behind : List Lexeme).flatMap Lexeme.text, ?_⟩
    rw [← List.flatMap_append, ← split]
    exact Lexeme.flatMap_text_cut source
  rw [List.nil_append, Position.start_after_initial initial] at found
  exact ⟨before, char, behind, split, none, found⟩

namespace Script

theorem read_of_clean {source : String} (clean : Token.firstStray? source.toList = none)
    (strict : Bool) : read strict source = .ok (ofSource source.toList) := by
  unfold read
  rw [clean]
  cases strict <;> rfl

theorem read_of_stray {source : String} {stray : StrayCharacter}
    (found : Token.firstStray? source.toList = some stray) :
    read true source = .error ⟨.strayCharacter stray.char, stray.position⟩ := by
  unfold read
  rw [found]

theorem kind_ne_endOfInput {source : List Char} {token : Token} (member : token ∈ Token.proper source) :
    token.kind ≠ .endOfInput := by
  obtain ⟨entry, -, given⟩ := List.mem_flatMap.mp member
  exact Lexeme.kind_ne_endOfInput given

/-- Nothing of a source text is lost or read twice, and every token stands where it was read. The
lexemes are consecutive, not empty and make up the source text; they give the tokens in their order,
each at the position of its lexeme, but a reference behind the dollar sign and the brace that begin it.
One more token marks the end, just behind the last character. Strict reading gives the same tokens
unless there is a stray character, and otherwise refuses the first one at its position. -/
theorem read_placed (source : String) :
    ∃ script, read false source = .ok script ∧
      (Lexeme.cut source.toList).flatMap Lexeme.text = source.toList ∧
      Reading source.toList 0 (Lexeme.cut source.toList) script.tokens.toList ∧
      script.allTokens = script.tokens.toList ++
        [⟨.endOfInput, none, .inText source.toList source.toList.length⟩] ∧
      (∀ token ∈ script.tokens.toList, token.kind ≠ .endOfInput) ∧
      ((∀ lexeme ∈ Lexeme.cut source.toList, lexeme.sort ≠ .stray) ∧
          read true source = .ok script ∨
        ∃ before char behind, Lexeme.cut source.toList = before ++ ⟨.stray, [char]⟩ :: behind ∧
          (∀ lexeme ∈ before, lexeme.sort ≠ .stray) ∧
          read true source = .error ⟨.strayCharacter char,
            .inText source.toList (before.flatMap Lexeme.text).length⟩) := by
  refine ⟨.ofSource source.toList, rfl, Lexeme.flatMap_text_cut _, reading_proper _, ?_, ?_, ?_⟩
  · rw [← Position.start_after]
    rfl
  · intro token member
    exact kind_ne_endOfInput member
  · rcases firstStray_cases source.toList with
      ⟨none, absent⟩ | ⟨before, char, behind, split, none, found⟩
    · exact .inl ⟨none, read_of_clean absent true⟩
    · exact .inr ⟨before, char, behind, split, none, read_of_stray found⟩

/-- An escaped line feed and one inside a reference both count. -/
example : (ofSource "\"a\\\n$\x7bb\n\x7d $\x7bc\x7d\"".toList).tokens.toList.map Token.position =
    [⟨1, 1⟩, ⟨2, 3⟩, ⟨1, 1⟩, ⟨3, 5⟩] := by
  decide +kernel

end Script

end Onepass
