import Onepass.Proofs.Lexing.Writing

/-! # What becomes of the characters of a literal

A quoted lexeme and what is read inside it are determined apart from each other: the lexeme pairs every
backslash with the character behind it, while inside a reference a backslash means nothing and a quote
ends the reading. Everything between the quotes is accounted for by the pieces of the literal if and only
if no reference meets an escaped quote before its brace. If one does, the reference is the last piece, and
the rest of the literal from that quote on belongs to none.
-/

set_option autoImplicit false

namespace Onepass

open Text (isBlank trim trimRight apostrophe doubleQuote)

/-! ## Trimming and walking -/

namespace Text

theorem mem_dropWhile {keep : Char} {test : Char → Bool} {text : List Char} (member : keep ∈ text)
    (solid : test keep = false) : keep ∈ text.dropWhile test := by
  rw [← List.takeWhile_append_dropWhile (p := test) (l := text), List.mem_append] at member
  refine member.resolve_left fun early => ?_
  rw [List.mem_takeWhile_imp early] at solid
  cases solid

/-- Trimming keeps what is not blank. -/
theorem mem_trim {keep : Char} {text : List Char} (member : keep ∈ text)
    (solid : isBlank keep = false) : keep ∈ trim text := by
  unfold trim trimRight
  rw [List.mem_reverse]
  exact mem_dropWhile (List.mem_reverse.mpr (mem_dropWhile member solid)) solid

end Text

namespace Position

theorem after_cons (position : Position) (char : Char) (text : List Char) :
    position.after (char :: text) = (position.next char).after text :=
  rfl

/-- Walking on leads to a later line, or further on in the same one. -/
theorem after_later (position : Position) (text : List Char) :
    position.line < (position.after text).line ∨
      position.line = (position.after text).line ∧
        position.column + text.length ≤ (position.after text).column := by
  induction text generalizing position with
  | nil => exact .inr ⟨rfl, Nat.le_refl _⟩
  | cons char text ih =>
      have later := ih (position.next char)
      rw [after_cons, List.length_cons]
      unfold next at later ⊢
      split at later
      case _ feed =>
        rw [if_pos feed]
        dsimp only at later
        omega
      case _ other =>
        rw [if_neg other]
        dsimp only at later
        omega

/-- Beginnings of one text that lead to the same position are the same. -/
theorem eq_of_after_eq (position : Position) {first second text : List Char}
    (initial : first <+: text) (other : second <+: text)
    (same : position.after first = position.after second) : first = second := by
  have whole {shorter longer : List Char} (within : shorter <+: longer)
      (same : position.after shorter = position.after longer) : shorter = longer := by
    obtain ⟨more, rfl⟩ := within
    have later := after_later (position.after shorter) more
    rw [← after_append, ← same] at later
    obtain rfl : more = [] := List.eq_nil_of_length_eq_zero (by omega)
    exact (List.append_nil shorter).symm
  rcases List.prefix_or_prefix_of_prefix initial other with within | within
  · exact whole within same
  · exact (whole within same.symm).symm

end Position

/-! ## Lexemes in quotes -/

theorem Literal.IsQuote.solid {quote : Char} (isQuote : IsQuote quote) : isBlank quote = false := by
  rcases isQuote with rfl | rfl <;> decide

/-- The sorts of lexemes in quotes, with the quote, the kind of their pieces of text, and whether they
may hold references. -/
inductive LexemeSort.Quotes : LexemeSort → Char → Kind → Bool → Prop
  | string : Quotes .string doubleQuote .stringLiteral true
  | char : Quotes .char apostrophe .charLiteral false

namespace Literal

/-- What stands between the quotes of a lexeme: each backslash has a character behind it, and a quote
stands only there. -/
inductive Body (quote : Char) : List Char → Prop
  | nil : Body quote []
  | plain {char : Char} {rest : List Char} (inner : char ≠ quote) (unescaping : char ≠ '\\')
      (body : Body quote rest) : Body quote (char :: rest)
  | escape {char : Char} {rest : List Char} (body : Body quote rest) :
      Body quote ('\\' :: char :: rest)

/-- What stands behind the body of a lexeme that was cut off a text: the closing quote, or nothing if the
text has none. A backslash at the very end of the text is left over. -/
inductive Closing (quote : Char) (text inside : List Char) : List Char → Prop
  | quote : Closing quote text inside [quote]
  | missing (ended : text = inside ∨ text = inside ++ ['\\']) : Closing quote text inside []

/-- A reference of the literal meets a quote before its brace. -/
inductive QuoteInReference (quote : Char) : List Char → Prop
  | here {name after : List Char} (inner : ∀ char ∈ name, char ≠ '\x7d' ∧ char ≠ quote) :
      QuoteInReference quote ('$' :: '\x7b' :: (name ++ quote :: after))
  | plain {char : Char} {rest : List Char} (inner : char ≠ quote) (unescaping : char ≠ '\\')
      (bare : char = '$' → rest.head? ≠ some '\x7b') (later : QuoteInReference quote rest) :
      QuoteInReference quote (char :: rest)
  | escape {char : Char} {rest : List Char} (later : QuoteInReference quote rest) :
      QuoteInReference quote ('\\' :: char :: rest)
  | reference {name rest : List Char} (inner : ∀ char ∈ name, char ≠ '\x7d' ∧ char ≠ quote)
      (later : QuoteInReference quote rest) :
      QuoteInReference quote ('$' :: '\x7b' :: (name ++ '\x7d' :: rest))

variable {quote : Char} {interpolates : Bool}

/-- How far a lexeme reaches behind its opening quote. -/
theorem take_quotedTail (isQuote : IsQuote quote) (text : List Char) :
    ∃ inside closing, text.take (LexemeSort.quotedTail quote text) = inside ++ closing ∧
      Body quote inside ∧ Closing quote text inside closing := by
  fun_induction LexemeSort.quotedTail quote text with
  | case1 => exact ⟨[], [], rfl, .nil, .missing (.inl rfl)⟩
  | case2 char rest ih =>
      obtain ⟨inside, closing, taken, body, ended⟩ := ih
      refine ⟨'\\' :: char :: inside, closing, ?_, .escape body, ?_⟩
      · rw [Nat.add_comm, List.take_succ_cons, List.take_succ_cons, taken]
        rfl
      · cases ended with
        | quote => exact .quote
        | missing ended => exact .missing (by simpa using ended)
  | case3 first rest _ closes =>
      obtain rfl : first = quote := by simpa using closes
      exact ⟨[], [first], rfl, .nil, .quote⟩
  | case4 first rest last _ escapes =>
      obtain rfl : first = '\\' := by simpa using escapes
      cases rest with
      | nil => exact ⟨[], [], rfl, .nil, .missing (.inr rfl)⟩
      | cons char rest => exact absurd rfl (last char rest rfl)
  | case5 first rest _ other plain ih =>
      obtain ⟨inside, closing, taken, body, ended⟩ := ih
      refine ⟨first :: inside, closing, ?_, .plain (by simpa using other) (by simpa using plain) body, ?_⟩
      · rw [Nat.add_comm, List.take_succ_cons, taken]
        rfl
      · cases ended with
        | quote => exact .quote
        | missing ended => exact .missing (by simpa using ended)

/-- Behind a character that is no backslash the body goes on as a body. -/
theorem Body.behind {before rest : List Char} {char : Char} (body : Body quote (before ++ char :: rest))
    (unescaping : char ≠ '\\') : Body quote rest := by
  generalize joined : before ++ char :: rest = text at body
  induction body generalizing before with
  | nil => simp at joined
  | plain _ _ inner ih =>
      cases before with
      | nil =>
          cases joined
          exact inner
      | cons first before =>
          cases joined
          exact ih rfl
  | escape inner ih =>
      match before, joined with
      | [], joined =>
          cases joined
          exact absurd rfl unescaping
      | [_], joined =>
          cases joined
          exact inner
      | _ :: _ :: before, joined =>
          cases joined
          exact ih rfl

/-! ## Parts and pieces -/

/-- The character that a part stands for, unless it is a reference. -/
def Part.char? : Part → Option Char
  | .plain char => some char
  | .escape char => some (unescaped char)
  | .reference .. => none

/-- How the text between the quotes of a literal divides into parts: a backslash takes the character behind
it with it, and a dollar sign with a brace everything up to the closing brace or, if there is none, up to
the end. A text divides in one way only. -/
inductive Division (interpolates : Bool) : List Char → List Part → Prop
  | nothing : Division interpolates [] []
  | plain {char : Char} {rest : List Char} {parts : List Part} (unescaping : char ≠ '\\')
      (bare : interpolates = true → char = '$' → rest.head? ≠ some '\x7b')
      (division : Division interpolates rest parts) :
      Division interpolates (char :: rest) (.plain char :: parts)
  | escape {char : Char} {rest : List Char} {parts : List Part}
      (division : Division interpolates rest parts) :
      Division interpolates ('\\' :: char :: rest) (.escape char :: parts)
  | reference {inside closing rest : List Char} {parts : List Part} (allowed : interpolates = true)
      (inner : '\x7d' ∉ inside) (ended : closing = ['\x7d'] ∨ closing = [] ∧ rest = [])
      (division : Division interpolates rest parts) :
      Division interpolates ('$' :: '\x7b' :: (inside ++ closing ++ rest))
        (.reference inside closing :: parts)

/-- Every part belongs to exactly one piece: those that stand for characters, in runs, to the text that
they spell, and each reference to the piece that names it, at the position of its name. -/
inductive Account : Position → List Part → List Piece → Prop
  | nothing {place : Position} : Account place [] []
  | text {place : Position} (run : List Part) {parts : List Part} {chars : List Char}
      {found : List Piece} (nonempty : run ≠ []) (spelled : run.map Part.char? = chars.map some)
      (rest : Account (place.after (run.flatMap Part.text)) parts found) :
      Account place (run ++ parts) (.text chars :: found)
  | reference {place : Position} {inside closing : List Char} {parts : List Part} {found : List Piece}
      (rest : Account (place.after (Part.reference inside closing).text) parts found) :
      Account place (.reference inside closing :: parts)
        (.reference (trim inside) (place.after ['$', '\x7b']) :: found)

/-- The tokens account for all of the text between the quotes of a literal at the position: of the parts
that the text divides into, each belongs to exactly one token. -/
def Accounted (quote : Char) (kind : Kind) (interpolates : Bool) (position : Position)
    (inside : List Char) (tokens : List Token) : Prop :=
  ∃ parts found, Division interpolates inside parts ∧
    Account (position.next quote) parts found ∧ tokens = tokensOf kind position found

theorem Division.text_eq {text : List Char} {parts : List Part}
    (division : Division interpolates text parts) : parts.flatMap Part.text = text := by
  induction division with
  | nothing => rfl
  | plain _ _ _ ih | escape _ ih => simp [Part.text, ih]
  | reference _ _ _ _ ih => simp [Part.text, ih]

theorem Division.ending {text inside closing : List Char} {parts : List Part}
    (division : Division interpolates text parts) (member : .reference inside closing ∈ parts) :
    closing = ['\x7d'] ∨ closing = [] := by
  induction division with
  | nothing => cases member
  | plain _ _ _ ih | escape _ ih =>
      obtain same | member := List.mem_cons.mp member
      · cases same
      · exact ih member
  | reference _ _ ended _ ih =>
      obtain same | member := List.mem_cons.mp member
      · cases same
        exact ended.imp_right And.left
      · exact ih member

theorem Part.item_of_char {part : Part} {char : Char} (stands : part.char? = some char)
    (place : Position) : part.item place = .char char := by
  cases part with
  | plain | escape => cases stands; rfl
  | reference => cases stands

/-- A character before a piece of text joins it. -/
theorem Account.char {place : Position} {part : Part} {parts : List Part} {char : Char}
    {items : List Item} (stands : part.char? = some char)
    (rest : Account (place.after part.text) parts (pieces items)) :
    Account place (part :: parts) (pieces (.char char :: items)) := by
  have alone {found : List Piece} (rest : Account (place.after part.text) parts found) :
      Account place (part :: parts) (.text [char] :: found) :=
    .text [part] (by simp) (by simp [stands]) (by simpa using rest)
  rw [pieces]
  split
  case _ chars others joined =>
    rw [joined] at rest
    generalize text : Piece.text chars :: others = found at rest
    cases rest with
    | text run nonempty spelled rest =>
        cases text
        refine .text (part :: _) (by simp) (by simp [stands, spelled]) ?_
        rw [List.flatMap_cons, Position.after_append]
        exact rest
    | nothing => cases text
    | reference => cases text
  case _ => exact alone rest

/-- What is read inside a literal accounts for its parts. -/
theorem account_pieces (place : Position) (parts : List Part) :
    Account place parts (pieces (itemsOf place parts)) := by
  induction parts generalizing place with
  | nil => exact .nothing
  | cons part parts ih =>
      have rest := ih (place.after part.text)
      rw [itemsOf]
      cases part with
      | plain | escape =>
          rw [Part.item_of_char rfl]
          exact .char rfl rest
      | reference inside closing => exact .reference rest

/-- A reference that is the last piece is the last part. -/
theorem Account.last {place position : Position} {parts : List Part} {found : List Piece}
    {name : List Char} (account : Account place parts (found ++ [.reference name position])) :
    ∃ before inside closing, parts = before ++ [.reference inside closing] ∧ name = trim inside ∧
      position = (place.after (before.flatMap Part.text)).after ['$', '\x7b'] := by
  generalize joined : found ++ [Piece.reference name position] = pieces at account
  induction account generalizing found with
  | nothing => simp at joined
  | text run _ _ _ ih =>
      cases found with
      | nil => cases joined
      | cons first found =>
          cases joined
          obtain ⟨before, inside, closing, rfl, named, placed⟩ := ih rfl
          refine ⟨run ++ before, inside, closing, by simp, named, ?_⟩
          rw [List.flatMap_append, Position.after_append]
          exact placed
  | @reference place inside closing parts others rest ih =>
      cases found with
      | nil =>
          cases joined
          cases rest
          exact ⟨[], inside, closing, rfl, rfl, rfl⟩
      | cons first found =>
          cases joined
          obtain ⟨before, deeper, ending, rfl, named, placed⟩ := ih rfl
          refine ⟨.reference inside closing :: before, deeper, ending, rfl, named, ?_⟩
          rw [List.flatMap_cons, Position.after_append]
          exact placed

/-! ## Literals that are read through -/

theorem Closing.eq_or {text inside closing : List Char} (ended : Closing quote text inside closing) :
    closing = [quote] ∨ closing = [] := by
  cases ended with
  | quote => exact .inl rfl
  | missing => exact .inr rfl

/-- A body does not begin with a quote. -/
theorem Body.head_ne (isQuote : IsQuote quote) {rest : List Char} : ¬ Body quote (quote :: rest) := by
  intro body
  generalize first : quote :: rest = text at body
  cases body with
  | nil => cases first
  | plain inner => cases first; exact inner rfl
  | escape => exact isQuote.ne.1 (List.cons.inj first).1

/-- What is read up to a character that is no quote lies before the closing quote. -/
theorem exists_behind (before : List Char) {rest inside closing : List Char} {char : Char}
    (inner : char ≠ quote) (ended : closing = [quote] ∨ closing = [])
    (joined : before ++ char :: rest = inside ++ closing) :
    ∃ behind, inside = before ++ char :: behind ∧ rest = behind ++ closing := by
  rcases List.append_eq_append_iff.mp joined with ⟨more, rfl, rest_eq⟩ | ⟨more, rfl, closing_eq⟩
  · cases more with
    | nil =>
        rcases ended with rfl | rfl
        · exact absurd (List.cons.inj rest_eq).1 inner
        · cases rest_eq
    | cons first more =>
        cases rest_eq
        exact ⟨more, rfl, rfl⟩
  · rcases ended with rfl | rfl
    · rcases more with - | ⟨first, more⟩
      · exact absurd (List.cons.inj closing_eq).1.symm inner
      · simp at closing_eq
    · simp at closing_eq

/-- Where no reference meets a quote, the layout of the literal divides what stands before its closing
quote. -/
theorem Layout.divides (isQuote : IsQuote quote) {text inside closing : List Char} {parts : List Part}
    (layout : Layout quote interpolates text parts) (joined : text = inside ++ closing)
    (body : Body quote inside) (ended : closing = [quote] ∨ closing = [])
    (clear : interpolates = true → ¬ QuoteInReference quote inside) :
    Division interpolates inside parts := by
  obtain ⟨backslash, dollar, brace, closingBrace⟩ := isQuote.ne
  induction layout generalizing inside with
  | unclosed =>
      obtain ⟨rfl, -⟩ := List.append_eq_nil_iff.mp joined.symm
      exact .nothing
  | closed rest =>
      cases inside with
      | nil => exact .nothing
      | cons first inside =>
          cases joined
          exact absurd body (Body.head_ne isQuote)
  | @plain char rest parts inner single bare layout ih =>
      obtain ⟨behind, rfl, rfl⟩ := exists_behind [] inner ended joined
      cases body with
      | plain _ unescaping body =>
          have bare' (on : interpolates = true) (opens : char = '$') :
              behind.head? ≠ some '\x7b' := by
            intro opened
            refine bare on opens ?_
            rw [List.head?_append, opened]
            rfl
          exact .plain unescaping bare'
            (ih rfl body fun on later => clear on (.plain inner unescaping (bare' on) later))
      | escape => simpa using single rfl
  | @escape char rest parts layout ih =>
      obtain ⟨behind, rfl, joined⟩ := exists_behind [] backslash.symm ended joined
      cases body with
      | plain _ unescaping => exact absurd rfl unescaping
      | escape body =>
          cases joined
          exact .escape (ih rfl body fun on later => clear on (.escape later))
  | @reference name ending rest parts allowed inner stops layout ih =>
      have unclosed : '\x7d' ∉ name := fun member => (inner _ member).1 rfl
      rcases stops with rfl | ⟨rfl, stops⟩
      · have joined : ('$' :: '\x7b' :: name) ++ '\x7d' :: rest = inside ++ closing := by
          simpa using joined
        obtain ⟨behind, rfl, rfl⟩ := exists_behind _ closingBrace.symm ended joined
        have rest := ih rfl (body.behind (by decide)) fun on later =>
          clear on (.reference inner later)
        simpa using Division.reference allowed unclosed (.inl rfl) rest
      · have joined : ('$' :: '\x7b' :: name) ++ rest = inside ++ closing := by simpa using joined
        obtain ⟨behind, rfl, rfl⟩ : ∃ behind, inside = ('$' :: '\x7b' :: name) ++ behind ∧
            rest = behind ++ closing := by
          rcases List.append_eq_append_iff.mp joined with ⟨more, whole, left⟩ | ⟨more, whole, left⟩
          · exact ⟨more, whole, left⟩
          · -- The name holds no quote, so the closing one is not read with it.
            have apart : quote ∉ more := by
              intro member
              have within : quote ∈ '$' :: '\x7b' :: name := by simp [whole, member]
              simp only [List.mem_cons, dollar, brace, false_or] at within
              exact (inner _ within).2 rfl
            obtain rfl : more = [] := by
              rcases ended with rfl | rfl
              · cases more <;> simp_all
              · exact (List.append_eq_nil_iff.mp left.symm).1
            exact ⟨[], by simpa using whole.symm, by simpa using left.symm⟩
        cases behind with
        | nil =>
            have rest := ih rfl .nil fun _ quoted => nomatch quoted
            simpa using Division.reference allowed unclosed (.inr ⟨rfl, rfl⟩) rest
        | cons first behind =>
            obtain rfl : first = quote := by simpa using stops
            exact absurd (.here inner) (clear allowed)

/-! ## Literals that are cut short -/

theorem QuoteInReference.mem {text : List Char} (quoted : QuoteInReference quote text) :
    quote ∈ text := by
  induction quoted with
  | here => simp
  | plain _ _ _ _ ih => exact List.mem_cons_of_mem _ ih
  | escape _ ih => exact List.mem_cons_of_mem _ (List.mem_cons_of_mem _ ih)
  | reference _ _ ih => simp [ih]

theorem QuoteInReference.ne_nil {text : List Char} (quoted : QuoteInReference quote text) :
    text ≠ [] := by
  cases quoted <;> simp

/-- What is read in a literal with a quote in a reference: the parts before that reference, and the name
up to the quote. -/
theorem QuoteInReference.items_eq (isQuote : IsQuote quote) {inside : List Char}
    (quoted : QuoteInReference quote inside) :
    ∃ before name after, (∀ char ∈ name, char ≠ '\x7d' ∧ char ≠ quote) ∧
      inside = before.flatMap Part.text ++ '$' :: '\x7b' :: (name ++ quote :: after) ∧
      ∀ (position : Position) (closing : List Char),
        items quote true position (inside ++ closing) = itemsOf position before ++
          [.reference (trim name) ((position.after (before.flatMap Part.text)).after ['$', '\x7b'])] := by
  induction quoted with
  | @here name after inner =>
      refine ⟨[], name, after, inner, rfl, fun position closing => ?_⟩
      have read := @items_reference quote (quote :: (after ++ closing)) name [] isQuote inner
        (.inr ⟨rfl, .inr rfl⟩) position
      rw [items_closed isQuote] at read
      simpa [itemsOf] using read
  | @plain char rest other unescaping bare later ih =>
      obtain ⟨before, name, after, inner, whole, read⟩ := ih
      refine ⟨.plain char :: before, name, after, inner, by simp [Part.text, whole],
        fun position closing => ?_⟩
      have unopened : true = true → char = '$' → (rest ++ closing).head? ≠ some '\x7b' := by
        intro _ opens
        rw [List.head?_append_of_ne_nil _ later.ne_nil]
        exact bare opens
      rw [List.cons_append, items_plain isQuote other (fun same => absurd same unescaping) unopened, read]
      rfl
  | @escape char rest later ih =>
      obtain ⟨before, name, after, inner, whole, read⟩ := ih
      refine ⟨.escape char :: before, name, after, inner, by simp [Part.text, whole],
        fun position closing => ?_⟩
      rw [List.cons_append, List.cons_append, items_escape, read]
      rfl
  | @reference label rest clean later ih =>
      obtain ⟨before, name, after, inner, whole, read⟩ := ih
      refine ⟨.reference label ['\x7d'] :: before, name, after, inner, by simp [Part.text, whole],
        fun position closing => ?_⟩
      have first := @items_reference quote (rest ++ closing) label ['\x7d'] isQuote clean (.inl rfl)
        position
      rw [read] at first
      simpa [itemsOf, Part.item, List.flatMap_cons, Position.after_append] using first

/-- A reference is a piece of its own. -/
theorem pieces_concat (items : List Item) (name : List Char) (position : Position) :
    pieces (items ++ [.reference name position]) = pieces items ++ [.reference name position] := by
  induction items with
  | nil => rfl
  | cons item items ih =>
      cases item with
      | reference => exact congrArg (List.cons _) ih
      | char value =>
          rw [List.cons_append, pieces, pieces, ih]
          rcases pieces items with - | ⟨⟨chars⟩ | ⟨other, place⟩, found⟩ <;> rfl

theorem tokensOf_concat (kind : Kind) (position : Position) (found : List Piece) (last : Piece) :
    tokensOf kind position (found ++ [last]) =
      found.map (Piece.token kind position) ++ [last.token kind position] := by
  cases found <;> simp [tokensOf]

/-- Tokens that end with a reference come from pieces that do. -/
theorem exists_concat_of_tokensOf {kind : Kind} (other : kind ≠ .reference) {position place : Position}
    {name : List Char} {first found : List Piece}
    (same : tokensOf kind position (first ++ [.reference name place]) = tokensOf kind position found) :
    ∃ before, found = before ++ [.reference name place] := by
  have lasts := congrArg List.getLast? same
  rw [tokensOf_concat, List.getLast?_concat] at lasts
  rcases List.eq_nil_or_concat found with rfl | ⟨before, last, rfl⟩
  · simp [tokensOf, Piece.token, other.symm] at lasts
  · rw [List.concat_eq_append] at lasts ⊢
    rw [tokensOf_concat, List.getLast?_concat] at lasts
    cases last with
    | text => simp [Piece.token, other.symm] at lasts
    | reference label spot =>
        obtain ⟨spelled, rfl⟩ : String.ofList name = String.ofList label ∧ place = spot := by
          simpa [Piece.token] using lasts
        exact ⟨before, by rw [String.ofList_injective spelled]⟩

/-- A literal with a quote in a reference is not accounted for: what stands behind the quote is in no
token. -/
theorem QuoteInReference.not_accounted (isQuote : IsQuote quote) {inside : List Char}
    (quoted : QuoteInReference quote inside) (kind : Kind) (other : kind ≠ .reference)
    (position : Position) (closing : List Char) :
    ¬ Accounted quote kind true position inside
      (tokensOf kind position (pieces (items quote true (position.next quote) (inside ++ closing)))) := by
  obtain ⟨before, name, after, inner, whole, read⟩ := quoted.items_eq isQuote
  rintro ⟨parts, found, division, account, same⟩
  rw [read, pieces_concat] at same
  obtain ⟨first, rfl⟩ := exists_concat_of_tokensOf other same
  obtain ⟨earlier, label, ending, rfl, trimmed, placed⟩ := account.last
  have spelled := division.text_eq
  rw [List.flatMap_append, List.flatMap_singleton] at spelled
  -- The last part begins where the reference with the quote does, so the quote is in its name.
  have start : before.flatMap Part.text ++ ['$', '\x7b'] =
      earlier.flatMap Part.text ++ ['$', '\x7b'] := by
    have initial : before.flatMap Part.text ++ ['$', '\x7b'] <+: inside :=
      ⟨name ++ quote :: after, by simp [whole]⟩
    refine Position.eq_of_after_eq (position.next quote) initial ?_ ?_
    · exact ⟨label ++ ending, by simp [← spelled, Part.text]⟩
    · rw [Position.after_append, Position.after_append]
      exact placed
  have behind : label ++ ending = name ++ quote :: after := by
    rw [List.append_cancel_right start] at whole
    rw [whole] at spelled
    simpa [Part.text] using spelled
  have held : quote ∈ label := by
    have within : quote ∈ label ++ ending := by simp [behind]
    refine (List.mem_append.mp within).resolve_right fun last => ?_
    rcases division.ending (List.mem_append_right _ (List.mem_singleton_self _)) with rfl | rfl
    · exact isQuote.ne.2.2.2 (List.mem_singleton.mp last)
    · cases last
  have member : quote ∈ name :=
    Text.mem_of_mem_trim (trimmed ▸ Text.mem_trim held isQuote.solid)
  exact (inner quote member).2 rfl

/-- What is read of a literal accounts for all of it, unless a reference meets a quote. -/
theorem accounted_iff (isQuote : IsQuote quote) {kind : Kind} (other : kind ≠ .reference)
    {inside closing : List Char} (body : Body quote inside) (ended : closing = [quote] ∨ closing = [])
    (position : Position) :
    Accounted quote kind interpolates position inside
        (tokens kind interpolates position (quote :: (inside ++ closing))) ↔
      ¬ (interpolates = true ∧ QuoteInReference quote inside) := by
  constructor
  · rintro accounted ⟨rfl, quoted⟩
    exact quoted.not_accounted isQuote kind other position closing accounted
  · intro clear
    obtain ⟨parts, layout⟩ := exists_layout isQuote interpolates (position.next quote) (inside ++ closing)
    have division := layout.divides isQuote rfl body ended fun on quoted => clear ⟨on, quoted⟩
    refine ⟨parts, _, division, account_pieces _ _, ?_⟩
    rw [tokens, layout.items_eq isQuote]

end Literal

/-! ## Lexemes and their tokens -/

theorem LexemeSort.Quotes.isQuote {sort : LexemeSort} {quote : Char} {kind : Kind} {interpolates : Bool}
    (quotes : sort.Quotes quote kind interpolates) : Literal.IsQuote quote := by
  cases quotes with
  | string => exact .inl rfl
  | char => exact .inr rfl

theorem LexemeSort.Quotes.take_extent {sort : LexemeSort} {quote : Char} {kind : Kind}
    {interpolates : Bool} (quotes : sort.Quotes quote kind interpolates) {text : List Char}
    (matched : 0 < sort.extent text) :
    ∃ behind, text = quote :: behind ∧
      text.take (sort.extent text) = quote :: behind.take (quotedTail quote behind) := by
  have extent : sort.extent = quotedExtent quote := by cases quotes <;> rfl
  rw [extent] at matched ⊢
  cases text with
  | nil => cases matched
  | cons first behind =>
      by_cases opened : first = quote
      · have extent : quotedExtent quote (first :: behind) = quotedTail quote behind + 1 := by
          simp [quotedExtent, opened, Nat.add_comm]
        rw [extent, List.take_succ_cons, opened]
        exact ⟨behind, rfl, rfl⟩
      · simp [quotedExtent, opened] at matched

theorem LexemeSort.Quotes.tokens_eq {sort : LexemeSort} {quote : Char} {kind : Kind} {interpolates : Bool}
    (quotes : sort.Quotes quote kind interpolates) (position : Position) (text : List Char) :
    Lexeme.tokens position ⟨sort, text⟩ = Literal.tokens kind interpolates position text := by
  cases quotes <;> rfl

/-- A lexeme in quotes is its opening quote, a body and the closing quote unless the text ends without
one. Its tokens account for the whole body if and only if no reference in it meets a quote, which only an
escaped one can be. Literals in apostrophes have no references. -/
theorem Lexeme.tokens_accounted_iff {sort : LexemeSort} {quote : Char} {kind : Kind} {interpolates : Bool}
    (quotes : sort.Quotes quote kind interpolates) {text : List Char} (matched : 0 < sort.extent text)
    (position : Position) :
    ∃ inside closing, text.take (sort.extent text) = quote :: (inside ++ closing) ∧
      Literal.Body quote inside ∧ Literal.Closing quote text.tail inside closing ∧
      (Literal.Accounted quote kind interpolates position inside
          (Lexeme.tokens position ⟨sort, text.take (sort.extent text)⟩) ↔
        ¬ (interpolates = true ∧ Literal.QuoteInReference quote inside)) := by
  obtain ⟨behind, rfl, taken⟩ := quotes.take_extent matched
  obtain ⟨inside, closing, split, body, ended⟩ := Literal.take_quotedTail quotes.isQuote behind
  rw [split] at taken
  have other : kind ≠ .reference := by cases quotes <;> nofun
  refine ⟨inside, closing, taken, body, ended, ?_⟩
  rw [taken, quotes.tokens_eq]
  exact Literal.accounted_iff quotes.isQuote other body ended.eq_or position

/-- A literal with an escaped quote, a reference and no closing quote, in a text that ends with a
backslash: the lexeme is all of the text but the backslash, and its tokens account for the body. -/
theorem Lexeme.unclosed_literal_accounted :
    let inside := ['\\', doubleQuote, '$', '\x7b', 'x', '\x7d']
    let text := doubleQuote :: (inside ++ ['\\'])
    0 < LexemeSort.string.extent text ∧
      Literal.Accounted doubleQuote .stringLiteral true .start inside
        (Lexeme.tokens .start ⟨.string, text.take 7⟩) := by
  intro inside text
  have matched : 0 < LexemeSort.string.extent text := by decide
  obtain ⟨found, closing, taken, -, ended, accounted⟩ :=
    Lexeme.tokens_accounted_iff .string matched .start
  have whole : inside = found ++ closing := (List.cons.inj taken).2
  have body : found = inside := by
    rcases ended.eq_or with rfl | rfl
    · have last := congrArg List.getLast? whole
      rw [List.getLast?_concat] at last
      exact absurd last (by decide)
    · rw [whole, List.append_nil]
  rw [body] at accounted
  refine ⟨matched, accounted.2 ?_⟩
  rintro ⟨-, quoted⟩
  unfold inside at quoted
  cases quoted with
  | plain _ unescaping _ _ => exact unescaping rfl
  | escape later => exact absurd later.mem (by decide)

/-- The whole text is one lexeme. Its only token is the reference, whose name ends before the quote, and
the letter and the brace behind the quote are lost with everything that follows. -/
theorem Lexeme.escaped_quote_cuts_literal :
    let inside := ['$', '\x7b', 'a', '\\', doubleQuote, 'b', '\x7d', 'c']
    let text := doubleQuote :: (inside ++ [doubleQuote])
    LexemeSort.string.extent text = text.length ∧
      Lexeme.tokens .start ⟨.string, text⟩ = [⟨.reference, some "a\\", ⟨1, 4⟩⟩] ∧
      ¬ Literal.Accounted doubleQuote .stringLiteral true .start inside
        (Lexeme.tokens .start ⟨.string, text⟩) := by
  intro inside text
  have name : ∀ char ∈ ['a', '\\'], char ≠ '\x7d' ∧ char ≠ doubleQuote := by simp [doubleQuote]
  have quoted : Literal.QuoteInReference doubleQuote inside := .here name
  refine ⟨by decide, by decide +kernel, ?_⟩
  exact quoted.not_accounted (.inl rfl) .stringLiteral nofun .start [doubleQuote]

end Onepass
