import Mathlib.Data.List.TakeWhile
import Onepass.Proofs.Lexing.Offset
import Onepass.Text.Quoted
import Onepass.Token.Literal

/-! # How literals are laid out

The text behind the opening quote of a literal is a sequence of parts: characters that stand for
themselves, characters with a backslash before them, and references. The layout of a literal is its
division into parts; it is given by rules that mention neither positions nor an order of reading. What
is read inside a literal is what its parts stand for, one after the other, each reference at the
position of the first character behind its own dollar sign and brace.
-/

set_option autoImplicit false

namespace Onepass.Literal

open Text (trim apostrophe doubleQuote)

/-- A part of the text of a literal. -/
inductive Part where
  | plain (char : Char)
  /-- A backslash and the character that it takes with it. -/
  | escape (char : Char)
  /-- A dollar sign, an opening brace, what stands behind them, and the closing brace unless it is
  missing. -/
  | reference (inside closing : List Char)
  deriving DecidableEq, Repr

/-- How a part is written. -/
def Part.text : Part → List Char
  | .plain char => [char]
  | .escape char => ['\\', char]
  | .reference inside closing => '$' :: '\x7b' :: (inside ++ closing)

/-- The text behind the opening quote consists of the parts, up to the closing quote or to the end.
What stands behind the closing quote belongs to no part. -/
inductive Layout (quote : Char) (interpolates : Bool) : List Char → List Part → Prop
  | unclosed : Layout quote interpolates [] []
  | closed (rest : List Char) : Layout quote interpolates (quote :: rest) []
  | plain {char : Char} {rest : List Char} {parts : List Part} (inner : char ≠ quote)
      (single : char = '\\' → rest = [])
      (bare : interpolates = true → char = '$' → rest.head? ≠ some '\x7b')
      (layout : Layout quote interpolates rest parts) :
      Layout quote interpolates (char :: rest) (.plain char :: parts)
  | escape {char : Char} {rest : List Char} {parts : List Part}
      (layout : Layout quote interpolates rest parts) :
      Layout quote interpolates ('\\' :: char :: rest) (.escape char :: parts)
  | reference {inside closing rest : List Char} {parts : List Part} (allowed : interpolates = true)
      (inner : ∀ char ∈ inside, char ≠ '\x7d' ∧ char ≠ quote)
      (ended : closing = ['\x7d'] ∨ closing = [] ∧ (rest = [] ∨ rest.head? = some quote))
      (layout : Layout quote interpolates rest parts) :
      Layout quote interpolates ('$' :: '\x7b' :: (inside ++ closing ++ rest))
        (.reference inside closing :: parts)

/-- What a part at a position stands for. -/
def Part.item (position : Position) : Part → Item
  | .plain char => .char char
  | .escape char => .char (unescaped char)
  | .reference inside _ => .reference (trim inside) (position.after ['$', '\x7b'])

/-- What parts stand for, the first of them at the given position. -/
def itemsOf (position : Position) : List Part → List Item
  | [] => []
  | part :: rest => part.item position :: itemsOf (position.after part.text) rest

/-- The characters that literals are put between. -/
def IsQuote (quote : Char) : Prop :=
  quote = doubleQuote ∨ quote = apostrophe

theorem IsQuote.ne {quote : Char} (isQuote : IsQuote quote) :
    quote ≠ '\\' ∧ quote ≠ '$' ∧ quote ≠ '\x7b' ∧ quote ≠ '\x7d' := by
  rcases isQuote with rfl | rfl <;> decide

variable {quote : Char} {interpolates : Bool} {rest : List Char}

/-! ## One part at a time -/

theorem items_closed (isQuote : IsQuote quote) (position : Position) (rest : List Char) :
    items quote interpolates position (quote :: rest) = [] := by
  obtain ⟨backslash, dollar, -, -⟩ := isQuote.ne
  rw [items]
  · simp
  · intro _ _ same
    exact absurd same backslash
  · intro _ same
    exact absurd same dollar

theorem items_escape (position : Position) (char : Char) :
    items quote interpolates position ('\\' :: char :: rest) =
      .char (unescaped char) :: items quote interpolates (position.after ['\\', char]) rest := by
  rw [items]
  rfl

/-- A character that neither escapes another one nor begins a reference stands for itself. A brace
behind a dollar sign is read together with it where no references are, and then stands for itself
too. -/
theorem items_plain {char : Char} (isQuote : IsQuote quote) (inner : char ≠ quote)
    (single : char = '\\' → rest = [])
    (bare : interpolates = true → char = '$' → rest.head? ≠ some '\x7b') (position : Position) :
    items quote interpolates position (char :: rest) =
      .char char :: items quote interpolates (position.next char) rest := by
  obtain ⟨-, -, brace, -⟩ := isQuote.ne
  by_cases joined : char = '$' ∧ rest.head? = some '\x7b'
  · obtain ⟨rfl, opened⟩ := joined
    obtain ⟨tail, rfl⟩ : ∃ tail, rest = '\x7b' :: tail := by
      cases rest <;> simp_all
    obtain rfl : interpolates = false := Bool.eq_false_iff.mpr fun on => bare on rfl opened
    rw [items, if_neg (by simp), items]
    · simp [brace.symm]
    · simp
    · simp
  · rw [items]
    · simp [inner]
    · intro escaped tail same behind
      exact absurd (single same) (by simp [behind])
    · intro tail same behind
      exact joined ⟨same, by simp [behind]⟩

/-- A reference ends at its closing brace or, if that is missing, before the closing quote or at the
end. -/
theorem name_read {inside closing : List Char} (isQuote : IsQuote quote)
    (inner : ∀ char ∈ inside, char ≠ '\x7d' ∧ char ≠ quote)
    (ended : closing = ['\x7d'] ∨ closing = [] ∧ (rest = [] ∨ rest.head? = some quote)) :
    nameRun quote (inside ++ closing ++ rest) = inside ∧
      afterName quote (inside ++ closing ++ rest) = rest := by
  obtain ⟨-, -, -, brace⟩ := isQuote.ne
  have isInner : ∀ char ∈ inside, (char != '\x7d' && char != quote) = true := by
    simpa using inner
  unfold nameRun afterName
  rw [List.append_assoc, List.takeWhile_append_of_pos isInner, List.dropWhile_append_of_pos isInner]
  rcases ended with rfl | ⟨rfl, rfl | quoted⟩
  · simp
  · simp
  · obtain ⟨behind, rfl⟩ : ∃ behind, rest = quote :: behind := by
      cases rest <;> simp_all
    simp [brace]

theorem items_reference {inside closing : List Char} (isQuote : IsQuote quote)
    (inner : ∀ char ∈ inside, char ≠ '\x7d' ∧ char ≠ quote)
    (ended : closing = ['\x7d'] ∨ closing = [] ∧ (rest = [] ∨ rest.head? = some quote))
    (position : Position) :
    items quote true position ('$' :: '\x7b' :: (inside ++ closing ++ rest)) =
      .reference (trim inside) (position.after ['$', '\x7b']) ::
        items quote true (position.after (Part.reference inside closing).text) rest := by
  obtain ⟨name, after⟩ := name_read isQuote inner ended
  have passed (position : Position) :
      positionAfterName quote position (inside ++ closing ++ rest) =
        position.after (inside ++ closing) := by
    rw [positionAfterName, after, List.length_append, Nat.add_sub_cancel, List.take_left]
  rw [items, if_pos rfl, name, after, passed]
  rfl

/-! ## Whole literals -/

/-- What is read inside a literal is what its parts stand for. -/
theorem Layout.items_eq {text : List Char} {parts : List Part} (isQuote : IsQuote quote)
    (layout : Layout quote interpolates text parts) (position : Position) :
    items quote interpolates position text = itemsOf position parts := by
  induction layout generalizing position with
  | unclosed => rw [items]; rfl
  | closed rest => exact items_closed isQuote position rest
  | plain inner single bare _ ih =>
      rw [items_plain isQuote inner single bare, ih]
      rfl
  | escape _ ih =>
      rw [items_escape, ih]
      rfl
  | reference allowed inner ended _ ih =>
      subst allowed
      rw [items_reference isQuote inner ended, ih]
      rfl

/-- The text behind a dollar sign and a brace is a name with what ends it, and the rest. -/
theorem name_parted (quote : Char) (text : List Char) :
    ∃ closing, text = nameRun quote text ++ closing ++ afterName quote text ∧
      (closing = ['\x7d'] ∨
        closing = [] ∧ (afterName quote text = [] ∨ (afterName quote text).head? = some quote)) := by
  have parted := List.takeWhile_append_dropWhile (p := fun char => char != '\x7d' && char != quote)
    (l := text)
  have first := List.head?_dropWhile_not (fun char => char != '\x7d' && char != quote) text
  unfold nameRun afterName
  generalize text.takeWhile _ = inside at parted ⊢
  generalize text.dropWhile _ = rest at parted first ⊢
  split
  case _ behind => exact ⟨['\x7d'], by simpa using parted.symm, .inl rfl⟩
  case _ other =>
    refine ⟨[], by simpa using parted.symm, .inr ⟨rfl, ?_⟩⟩
    cases rest with
    | nil => exact .inl rfl
    | cons char behind =>
        have unclosed : char ≠ '\x7d' := fun same => other behind (by rw [same])
        exact .inr (by simpa [unclosed] using first)

/-- Every text can be laid out. -/
theorem exists_layout (isQuote : IsQuote quote) (interpolates : Bool) (position : Position)
    (text : List Char) : ∃ parts, Layout quote interpolates text parts := by
  obtain ⟨-, dollar, brace, -⟩ := isQuote.ne
  fun_induction items quote interpolates position text with
  | case1 => exact ⟨[], .unclosed⟩
  | case2 position char rest ih =>
      obtain ⟨parts, layout⟩ := ih
      exact ⟨_, .escape layout⟩
  | case3 position rest inside allowed ih =>
      obtain ⟨parts, layout⟩ := ih
      obtain ⟨closing, parted, ended⟩ := name_parted quote rest
      have inner : ∀ char ∈ nameRun quote rest, char ≠ '\x7d' ∧ char ≠ quote := by
        intro char member
        simpa using List.mem_takeWhile_imp member
      rw [parted]
      exact ⟨_, .reference allowed inner ended layout⟩
  | case4 position rest inside off ih =>
      obtain ⟨parts, layout⟩ := ih
      have opened : Layout quote interpolates ('\x7b' :: rest) (.plain '\x7b' :: parts) :=
        .plain brace.symm (by simp) (by simp) layout
      exact ⟨_, .plain dollar.symm (by simp) (fun allowed => absurd allowed off) opened⟩
  | case5 position char rest _ _ closes =>
      obtain rfl : char = quote := by simpa using closes
      exact ⟨[], .closed rest⟩
  | case6 position char rest unescaped unopened inner ih =>
      obtain ⟨parts, layout⟩ := ih
      refine ⟨_, .plain (by simpa using inner) ?_ ?_ layout⟩
      · rintro rfl
        cases rest with
        | nil => rfl
        | cons next tail => exact absurd rfl (unescaped next tail rfl)
      · rintro - rfl opened
        cases rest with
        | nil => cases opened
        | cons next tail =>
            cases opened
            exact unopened tail rfl rfl

theorem Layout.text_eq {text : List Char} {parts : List Part}
    (layout : Layout quote interpolates text parts) :
    ∃ behind, text = parts.flatMap Part.text ++ behind := by
  induction layout with
  | unclosed => exact ⟨[], rfl⟩
  | closed rest => exact ⟨quote :: rest, rfl⟩
  | plain _ _ _ _ ih =>
      obtain ⟨behind, rfl⟩ := ih
      exact ⟨behind, rfl⟩
  | escape _ ih =>
      obtain ⟨behind, rfl⟩ := ih
      exact ⟨behind, rfl⟩
  | reference _ _ _ _ ih =>
      obtain ⟨behind, rfl⟩ := ih
      exact ⟨behind, by simp [Part.text]⟩

/-! ## Tokens of a literal -/

/-- Where no references are read, every part stands for a character. -/
theorem Layout.itemsOf_eq {text : List Char} {parts : List Part}
    (layout : Layout quote false text parts) (position : Position) : ∃ chars : List Char, itemsOf position parts = chars.map .char := by
  induction layout generalizing position with
  | unclosed => exact ⟨[], rfl⟩
  | closed rest => exact ⟨[], rfl⟩
  | @plain char _ _ _ _ _ _ ih =>
      obtain ⟨chars, same⟩ := ih (position.after [char])
      exact ⟨char :: chars, congrArg _ same⟩
  | @escape char _ _ _ ih =>
      obtain ⟨chars, same⟩ := ih (position.after ['\\', char])
      exact ⟨unescaped char :: chars, congrArg _ same⟩
  | reference allowed => cases allowed

/-- Characters without references between them are one piece. -/
theorem pieces_chars (char : Char) (chars : List Char) :
    pieces (.char char :: chars.map .char) = [.text (char :: chars)] := by
  induction chars generalizing char with
  | nil => rfl
  | cons next rest ih => rw [List.map_cons, pieces, ih]

theorem tokensOf_chars (kind : Kind) (position : Position) (chars : List Char) :
    tokensOf kind position (pieces (chars.map .char)) =
      [⟨kind, some (String.ofList chars), position⟩] := by
  cases chars with
  | nil => rfl
  | cons char rest =>
      rw [List.map_cons, pieces_chars]
      rfl

/-- The token of an item that is a reference. -/
def Item.referenceToken? : Item → Option Token
  | .char _ => none
  | .reference name position => some ⟨.reference, some (String.ofList name), position⟩

/-- The token of a piece that is a reference. -/
def Piece.referenceToken? : Piece → Option Token
  | .text _ => none
  | .reference name position => some ⟨.reference, some (String.ofList name), position⟩

/-- Joining characters leaves the references as they are. -/
theorem references_pieces (items : List Item) :
    (pieces items).filterMap Piece.referenceToken? = items.filterMap Item.referenceToken? := by
  fun_induction pieces items with
  | case1 => rfl
  | case2 name position rest ih => exact congrArg (List.cons _) ih
  | case3 char rest chars others joined ih =>
      rw [joined] at ih
      exact ih
  | case4 char rest _ ih => exact ih

/-- The tokens of a literal that are no references have the position of the literal. -/
theorem position_of_tokensOf {kind : Kind} {position : Position} {found : List Piece} {token : Token}
    (member : token ∈ tokensOf kind position found) (plain : token.kind ≠ .reference) :
    token.position = position := by
  unfold tokensOf at member
  split at member
  · obtain rfl := List.mem_singleton.mp member
    rfl
  · obtain ⟨piece, -, rfl⟩ := List.mem_map.mp member
    cases piece with
    | text chars => rfl
    | reference name place => exact absurd rfl plain

theorem tokensOf_ne_nil (kind : Kind) (position : Position) (found : List Piece) :
    tokensOf kind position found ≠ [] := by
  unfold tokensOf
  split <;> simp_all

/-- The tokens of a literal that are references, in their order. -/
theorem filter_tokensOf {kind : Kind} (other : kind ≠ .reference) (position : Position)
    (found : List Piece) :
    (tokensOf kind position found).filter (fun token => token.kind = .reference) =
      found.filterMap Piece.referenceToken? := by
  have mapped : (found.map (Piece.token kind position)).filter (fun token => token.kind = .reference) =
      found.filterMap Piece.referenceToken? := by
    induction found with
    | nil => rfl
    | cons piece rest ih =>
        cases piece with
        | text chars =>
            rw [List.map_cons, List.filter_cons_of_neg (by simp [Piece.token, other])]
            exact ih
        | reference name place =>
            rw [List.map_cons, List.filter_cons_of_pos (by rfl)]
            exact congrArg (List.cons _) ih
  unfold tokensOf
  split
  · simp [other]
  · exact mapped

/-- The references of a part at an offset: the offset of the first character behind the dollar sign
and the brace, and what stands there up to the end of the reference. -/
def Part.references (offset : Nat) : Part → List (Nat × List Char)
  | .reference inside _ => [(offset + 2, inside)]
  | _ => []

/-- The references of parts, the first of them at the given offset. -/
def referencesOf (offset : Nat) : List Part → List (Nat × List Char)
  | [] => []
  | part :: rest => part.references offset ++ referencesOf (offset + part.text.length) rest

/-- The token of a reference whose name begins at an offset of a source text. -/
def referenceToken (source : List Char) (reference : Nat × List Char) : Token :=
  ⟨.reference, some (String.ofList (trim reference.2)), .inText source reference.1⟩

/-- Where the references of a literal stand in the source text. -/
theorem references_itemsOf {source : List Char} (before : List Char) (parts : List Part)
    (initial : before ++ parts.flatMap Part.text <+: source) :
    (itemsOf (Position.start.after before) parts).filterMap Item.referenceToken? =
      (referencesOf before.length parts).map (referenceToken source) := by
  induction parts generalizing before with
  | nil => rfl
  | cons part rest ih =>
      have following := ih (before ++ part.text) (by simpa using initial)
      rw [Position.after_append, List.length_append] at following
      rw [itemsOf, referencesOf, List.map_append, ← following]
      cases part with
      | plain char => rfl
      | escape char => rfl
      | reference inside closing =>
          have opened : before ++ ['$', '\x7b'] <+: source := by
            refine List.IsPrefix.trans ⟨inside ++ closing ++ rest.flatMap Part.text, ?_⟩ initial
            simp [Part.text]
          have place := Position.start_after_initial opened
          rw [Position.after_append] at place
          simp [Part.item, Item.referenceToken?, Part.references, referenceToken, place]

end Onepass.Literal
