import Onepass.Proofs.Lexing.Account

/-! # The patterns of lexemes

What a lexeme of each sort looks like, said without a way to find it: the pattern of a sort tells which
texts it matches, given what stands behind them. A pattern may match several beginnings of one text. The
extent of the sort is the longest of them, and it is zero only if there is none.
-/

set_option autoImplicit false

namespace Onepass

open Text (isDigit isWordStart isWordPart)

/-- A word without brackets behind it. -/
inductive Text.IsBareWord : List Char → Prop
  | intro {first : Char} {part : List Char} (starts : isWordStart first = true)
      (parts : ∀ char ∈ part, isWordPart char = true) : IsBareWord (first :: part)

theorem Text.IsBareWord.isWordPart_eq {word : List Char} (bare : IsBareWord word) :
    ∀ char ∈ word, isWordPart char = true := by
  obtain ⟨starts, parts⟩ := bare
  exact List.forall_mem_cons.mpr ⟨by simp [isWordPart, starts], parts⟩

theorem Text.IsBareWord.ne_nil {word : List Char} (bare : IsBareWord word) : word ≠ [] := by
  obtain ⟨-, -⟩ := bare
  exact List.cons_ne_nil _ _

namespace LexemeSort

variable {sort : LexemeSort} {text word rest : List Char}

/-- The pattern of the sort matches the first text where the second one stands behind it. A block
comment ends at its first closing, and only at the end of the script if it has none. -/
inductive Matches : LexemeSort → List Char → List Char → Prop
  | elseIf {blanks rest : List Char} (nonempty : blanks ≠ [])
      (inline : ∀ char ∈ blanks, isInlineBlank char = true)
      (ended : ∀ char ∈ rest.head?, isWordPart char = false) :
      Matches .elseIf ("else".toList ++ (blanks ++ "if".toList)) rest
  | whole {digits rest : List Char} (nonempty : digits ≠ [])
      (digital : ∀ char ∈ digits, isDigit char = true) : Matches .number digits rest
  | fraction {digits behind rest : List Char} (nonempty : digits ≠ [])
      (digital : ∀ char ∈ digits, isDigit char = true)
      (behindDigital : ∀ char ∈ behind, isDigit char = true)
      (single : (behind ++ rest).head? ≠ some '.') : Matches .number (digits ++ '.' :: behind) rest
  | quoted {sort : LexemeSort} {quote : Char} {kind : Kind} {interpolates : Bool}
      {inside closing rest : List Char} (quotes : sort.Quotes quote kind interpolates)
      (body : Literal.Body quote inside) (ended : closing = [quote] ∨ closing = []) :
      Matches sort (quote :: (inside ++ closing)) rest
  | word {word rest : List Char} (count : Nat) (bare : Text.IsBareWord word) :
      Matches .word (word ++ brackets count) rest
  | lineComment {line rest : List Char} (inner : ∀ char ∈ line, char ≠ '\n') :
      Matches .lineComment ('/' :: '/' :: line) rest
  | closedComment {inside rest : List Char} (first : ¬ ['*', '/'] <:+: inside ++ ['*']) :
      Matches .blockComment ('/' :: '*' :: (inside ++ ['*', '/'])) rest
  | openComment {inside : List Char} (unclosed : ¬ ['*', '/'] <:+: inside) :
      Matches .blockComment ('/' :: '*' :: inside) []
  | blank {blanks rest : List Char} (nonempty : blanks ≠ [])
      (separating : ∀ char ∈ blanks, isSeparator char = true) : Matches .blank blanks rest
  | symbol (mark : Symbol) (rest : List Char) : Matches (.symbol mark) mark.spelling.toList rest
  | stray (char : Char) (rest : List Char) : Matches .stray [char] rest

/-! ## Runs of characters -/

/-- A text begins with a run of members, and no member stands behind it. -/
theorem exists_run (isMember : Char → Bool) (text : List Char) :
    ∃ run rest, text = run ++ rest ∧ (∀ char ∈ run, isMember char = true) ∧
      ∀ char ∈ rest.head?, isMember char = false := by
  refine ⟨text.takeWhile isMember, text.dropWhile isMember, List.takeWhile_append_dropWhile.symm,
    fun char => List.mem_takeWhile_imp, fun char first => ?_⟩
  have stopped := List.head?_dropWhile_not isMember text
  rw [Option.mem_def.mp first] at stopped
  simpa using stopped

theorem le_runLength {isMember : Char → Bool} {run : List Char}
    (members : ∀ char ∈ run, isMember char = true) (rest : List Char) :
    run.length ≤ runLength isMember (run ++ rest) := by
  rw [runLength, List.takeWhile_append_of_pos members, List.length_append]
  exact Nat.le_add_right _ _

/-! ## What is found matches -/

/-- The extent of the sort is the length of a beginning that its pattern matches. -/
def Finds (sort : LexemeSort) (text : List Char) : Prop :=
  ∃ word rest, text = word ++ rest ∧ word.length = sort.extent text ∧ sort.Matches word rest

theorem finds_elseIf (matched : 0 < elseIfExtent text) : Finds .elseIf text := by
  unfold elseIfExtent at matched
  split at matched
  case _ behind =>
    obtain ⟨blanks, rest, rfl, inline, unblank⟩ := exists_run isInlineBlank behind
    have run := runLength_append inline unblank
    simp only [run, List.drop_left] at matched
    split at matched
    case _ tail =>
      split at matched
      case isTrue => cases matched
      case isFalse proper =>
        simp only [Bool.or_eq_true, beq_iff_eq, not_or] at proper
        have nonempty : blanks ≠ [] := List.length_eq_zero_iff.not.mp proper.1
        have ended : ∀ char ∈ tail.head?, isWordPart char = false := by
          intro char first
          simpa [Option.mem_def.mp first] using proper.2
        refine ⟨_, tail, ?_, ?_, .elseIf nonempty inline ended⟩
        · simp
        · simp [extent, elseIfExtent, run, nonempty, proper.2]
          omega
    case _ => cases matched
  case _ => cases matched

theorem finds_number (matched : 0 < numberExtent text) : Finds .number text := by
  obtain ⟨digits, behind, rfl, digital, undigital⟩ := exists_run isDigit text
  have run := runLength_append digital undigital
  have nonempty : digits ≠ [] := by
    rintro rfl
    rw [List.nil_append] at matched run
    simp [numberExtent, run] at matched
  have measured : extent .number (digits ++ behind) = digits.length + fractionExtent behind := by
    simp [extent, numberExtent, run, nonempty]
  unfold fractionExtent at measured
  split at measured
  case _ tail => exact ⟨digits, _, rfl, measured.symm, .whole nonempty digital⟩
  case _ rest single =>
    obtain ⟨fraction, rest, rfl, fractional, unfractional⟩ := exists_run isDigit rest
    rw [runLength_append fractional unfractional] at measured
    refine ⟨digits ++ '.' :: fraction, rest, by simp, ?_, .fraction nonempty digital fractional ?_⟩
    · rw [measured, List.length_append, List.length_cons]
      omega
    · intro point
      obtain ⟨tail, more⟩ := List.head?_eq_some_iff.mp point
      exact single tail more
  case _ => exact ⟨digits, behind, rfl, measured.symm, .whole nonempty digital⟩

theorem quotedTail_le (quote : Char) (text : List Char) : quotedTail quote text ≤ text.length := by
  fun_induction quotedTail quote text <;> simp only [List.length_nil, List.length_cons] <;> omega

theorem Quotes.finds {quote : Char} {kind : Kind} {interpolates : Bool}
    (quotes : sort.Quotes quote kind interpolates) (matched : 0 < sort.extent text) :
    Finds sort text := by
  obtain ⟨behind, rfl, taken⟩ := quotes.take_extent matched
  obtain ⟨inside, closing, split, body, ended⟩ := Literal.take_quotedTail quotes.isQuote behind
  have extent : sort.extent (quote :: behind) = 1 + quotedTail quote behind := by
    cases quotes <;> simp [LexemeSort.extent, quotedExtent]
  have within : sort.extent (quote :: behind) ≤ (quote :: behind).length := by
    have := quotedTail_le quote behind
    rw [extent, List.length_cons]
    omega
  rw [split] at taken
  refine ⟨quote :: (inside ++ closing), (quote :: behind).drop (sort.extent (quote :: behind)), ?_, ?_,
    .quoted quotes body ?_⟩
  · rw [← taken, List.take_append_drop]
  · rw [← taken, List.length_take, Nat.min_eq_left within]
  · cases ended with
    | quote => exact .inl rfl
    | missing _ => exact .inr rfl

/-- A text begins with so many pairs of brackets. -/
theorem exists_brackets (text : List Char) :
    ∃ count rest, text = brackets count ++ rest ∧
      bracketsExtent text = (brackets count).length := by
  fun_induction bracketsExtent text with
  | case1 rest ih =>
      obtain ⟨count, behind, rfl, folded⟩ := ih
      refine ⟨count + 1, behind, rfl, ?_⟩
      rw [folded, brackets, List.length_cons, List.length_cons]
      omega
  | case2 text _ => exact ⟨0, text, rfl, rfl⟩

theorem finds_word (matched : 0 < wordExtent text) : Finds .word text := by
  cases text with
  | nil => cases matched
  | cons first behind =>
      by_cases starts : isWordStart first = true
      · obtain ⟨part, behind, rfl, parts, unworded⟩ := exists_run isWordPart behind
        have run := runLength_append parts unworded
        obtain ⟨count, rest, rfl, folded⟩ := exists_brackets behind
        have bare : Text.IsBareWord (first :: part) := .intro starts parts
        refine ⟨first :: part ++ brackets count, rest, by simp, ?_, .word count bare⟩
        simp only [extent, wordExtent, starts, if_true, run, List.drop_left, folded, List.length_append,
          List.length_cons]
        omega
      · simp [wordExtent, starts] at matched

theorem finds_lineComment (matched : 0 < lineCommentExtent text) : Finds .lineComment text := by
  unfold lineCommentExtent at matched
  split at matched
  case _ behind =>
    obtain ⟨line, rest, rfl, inner, ended⟩ := exists_run (· != '\n') behind
    refine ⟨'/' :: '/' :: line, rest, rfl, ?_, .lineComment (by simpa using inner)⟩
    have run := runLength_append inner ended
    simp only [extent, lineCommentExtent, run, List.length_cons]
    omega
  case _ => cases matched

/-- A closing that stands in a text behind another character stands in the text, unless the character
and the first one of the text are a closing. -/
theorem closing_infix_cons {char : Char} {text : List Char}
    (apart : ∀ tail, char = '*' → text = '/' :: tail → False) :
    ['*', '/'] <:+: char :: text ↔ ['*', '/'] <:+: text := by
  rw [List.infix_cons_iff, or_iff_right]
  rintro ⟨tail, same⟩
  obtain ⟨rfl, rfl⟩ : '*' = char ∧ '/' :: tail = text := by simpa using same
  exact apart tail rfl rfl

/-- What follows the opening of a block comment is closed for the first time, or never. -/
theorem blockCommentTail_cases (text : List Char) :
    (∃ inside rest, text = inside ++ '*' :: '/' :: rest ∧ ¬ ['*', '/'] <:+: inside ++ ['*'] ∧
        blockCommentTail text = inside.length + 2) ∨
      ¬ ['*', '/'] <:+: text ∧ blockCommentTail text = text.length := by
  fun_induction blockCommentTail text with
  | case1 => exact .inr ⟨by decide, rfl⟩
  | case2 rest => exact .inl ⟨[], rest, rfl, by decide, rfl⟩
  | case3 char rest apart ih =>
      rcases ih with ⟨inside, behind, rfl, first, length⟩ | ⟨unclosed, length⟩
      · have parted : ∀ tail, char = '*' → inside ++ ['*'] = '/' :: tail → False := by
          intro tail star slash
          cases inside with
          | nil => cases slash
          | cons second inside =>
              cases slash
              exact apart _ star rfl
        refine .inl ⟨char :: inside, behind, rfl, ?_, ?_⟩
        · rw [List.cons_append, closing_infix_cons parted]
          exact first
        · rw [length, List.length_cons]
          omega
      · refine .inr ⟨?_, ?_⟩
        · rw [closing_infix_cons apart]
          exact unclosed
        · rw [length, List.length_cons]
          omega

theorem finds_blockComment (matched : 0 < blockCommentExtent text) : Finds .blockComment text := by
  unfold blockCommentExtent at matched
  split at matched
  case _ behind =>
    rcases blockCommentTail_cases behind with
      ⟨inside, rest, rfl, first, length⟩ | ⟨unclosed, length⟩
    · refine ⟨_, rest, by simp, ?_, .closedComment first⟩
      simp only [extent, blockCommentExtent, length, List.length_cons, List.length_append,
        List.length_nil]
      omega
    · refine ⟨_, [], (List.append_nil _).symm, ?_, .openComment unclosed⟩
      simp only [extent, blockCommentExtent, length, List.length_cons]
      omega
  case _ => cases matched

theorem finds_blank (matched : 0 < runLength isSeparator text) : Finds .blank text := by
  obtain ⟨blanks, rest, rfl, separating, ended⟩ := exists_run isSeparator text
  have run := runLength_append separating ended
  rw [run] at matched
  exact ⟨blanks, rest, rfl, run.symm, .blank (List.ne_nil_of_length_pos matched) separating⟩

theorem finds_symbol {mark : Symbol} (matched : 0 < symbolExtent mark text) :
    Finds (.symbol mark) text := by
  unfold symbolExtent at matched
  split at matched
  case isTrue initial =>
    obtain ⟨rest, rfl⟩ := List.isPrefixOf_iff_prefix.mp initial
    refine ⟨_, rest, rfl, ?_, .symbol mark rest⟩
    simp [extent, symbolExtent, String.length_toList]
  case isFalse => cases matched

/-- What is found of a sort is what its pattern matches. -/
theorem finds_of_extent (matched : 0 < sort.extent text) : Finds sort text := by
  cases sort with
  | elseIf => exact finds_elseIf matched
  | number => exact finds_number matched
  | string => exact Quotes.string.finds matched
  | char => exact Quotes.char.finds matched
  | word => exact finds_word matched
  | lineComment => exact finds_lineComment matched
  | blockComment => exact finds_blockComment matched
  | blank => exact finds_blank matched
  | symbol mark => exact finds_symbol matched
  | stray =>
      cases text with
      | nil => cases matched
      | cons char rest => exact ⟨[char], rest, rfl, by simp [extent], .stray char rest⟩

/-! ## Nothing longer matches -/

theorem le_numberExtent_of_fraction {digits behind : List Char} (nonempty : digits ≠ [])
    (digital : ∀ char ∈ digits, isDigit char = true)
    (behindDigital : ∀ char ∈ behind, isDigit char = true)
    (single : (behind ++ rest).head? ≠ some '.') :
    (digits ++ '.' :: behind).length ≤ numberExtent (digits ++ '.' :: (behind ++ rest)) := by
  have run : runLength isDigit (digits ++ '.' :: (behind ++ rest)) = digits.length :=
    runLength_append digital fun char first => by
      obtain rfl := Option.mem_some_iff.mp first
      rfl
  have pointed : fractionExtent ('.' :: (behind ++ rest)) = 1 + runLength isDigit (behind ++ rest) := by
    rw [fractionExtent]
    intro tail same
    exact single (by rw [same]; rfl)
  have := le_runLength behindDigital rest
  simp only [numberExtent, run, beq_iff_eq, List.length_eq_zero_iff, nonempty, if_false, List.drop_left,
    pointed, List.length_append, List.length_cons]
  omega

theorem le_quotedTail {quote : Char} {inside closing : List Char} (body : Literal.Body quote inside)
    (other : quote ≠ '\\') (ended : closing = [quote] ∨ closing = []) (rest : List Char) :
    (inside ++ closing).length ≤ quotedTail quote (inside ++ closing ++ rest) := by
  induction body with
  | nil =>
      rcases ended with rfl | rfl
      · exact Nat.le_of_eq (quotedTail_closed other rest).symm
      · exact Nat.zero_le _
  | plain inner unescaping _ ih =>
      rw [List.cons_append, List.cons_append, quotedTail_plain inner unescaping, List.length_cons]
      omega
  | escape _ ih =>
      rw [List.cons_append, List.cons_append, List.cons_append, List.cons_append, quotedTail,
        List.length_cons, List.length_cons]
      omega

theorem le_bracketsExtent (count : Nat) (rest : List Char) :
    (brackets count).length ≤ bracketsExtent (brackets count ++ rest) := by
  induction count with
  | zero => exact Nat.zero_le _
  | succ count ih =>
      change (brackets count).length + 1 + 1 ≤ 2 + bracketsExtent (brackets count ++ rest)
      omega

theorem le_wordExtent {word : List Char} (bare : Text.IsBareWord word) (count : Nat) (rest : List Char) :
    (word ++ brackets count).length ≤ wordExtent (word ++ brackets count ++ rest) := by
  obtain @⟨first, part, starts, parts⟩ := bare
  have shape : first :: part ++ brackets count ++ rest =
      first :: (part ++ (brackets count ++ rest)) := by simp
  rw [shape]
  simp only [wordExtent, starts, if_true, List.length_append, List.length_cons]
  have run := le_runLength parts (brackets count ++ rest)
  cases count with
  | zero =>
      have none : (brackets 0).length = 0 := rfl
      omega
  | succ count =>
      have stopped : runLength isWordPart (part ++ (brackets (count + 1) ++ rest)) = part.length :=
        runLength_append parts fun char first => by
          obtain rfl := Option.mem_some_iff.mp first
          rfl
      have folded := le_bracketsExtent (count + 1) rest
      rw [stopped, List.drop_left]
      omega

theorem le_blockCommentTail {inside : List Char} (first : ¬ ['*', '/'] <:+: inside ++ ['*'])
    (rest : List Char) : inside.length + 2 ≤ blockCommentTail (inside ++ '*' :: '/' :: rest) := by
  rcases blockCommentTail_cases (inside ++ '*' :: '/' :: rest) with
    ⟨other, behind, same, -, length⟩ | ⟨unclosed, -⟩
  · rw [length, Nat.add_le_add_iff_right]
    apply Nat.le_of_not_lt
    intro shorter
    -- The closing behind the other text would stand inside the first one.
    have closed : other ++ ['*', '/'] <+: inside ++ '*' :: '/' :: rest :=
      ⟨behind, by rw [same]; simp⟩
    have opened : inside ++ ['*'] <+: inside ++ '*' :: '/' :: rest := ⟨'/' :: rest, by simp⟩
    have initial : other ++ ['*', '/'] <+: inside ++ ['*'] :=
      List.prefix_of_prefix_length_le closed opened (by simp; omega)
    exact first (List.IsInfix.trans (List.suffix_append other ['*', '/']).isInfix initial.isInfix)
  · exact absurd ⟨inside, rest, by simp⟩ unclosed

theorem Matches.le_extent (found : sort.Matches word rest) :
    word.length ≤ sort.extent (word ++ rest) := by
  cases found with
  | @elseIf blanks _ nonempty inline ended =>
      have run : runLength isInlineBlank (blanks ++ 'i' :: 'f' :: rest) = blanks.length :=
        runLength_append inline fun char first => by
          obtain rfl := Option.mem_some_iff.mp first
          rfl
      have unextended : (rest.head?.map isWordPart).getD false = false := by
        cases rest with
        | nil => rfl
        | cons char behind => exact ended char rfl
      simp [extent, elseIfExtent, run, nonempty, unextended]
      omega
  | whole nonempty digital =>
      have run := le_runLength digital rest
      have positive := List.length_pos_iff.mpr nonempty
      simp only [extent, numberExtent, beq_iff_eq]
      rw [if_neg (by omega)]
      omega
  | fraction nonempty digital behindDigital single =>
      rw [List.append_assoc, List.cons_append]
      exact le_numberExtent_of_fraction nonempty digital behindDigital single
  | @quoted _ quote _ _ inside closing _ quotes body ended =>
      have measured := le_quotedTail body quotes.isQuote.ne.1 ended rest
      have extent : sort.extent (quote :: (inside ++ closing) ++ rest) =
          1 + quotedTail quote (inside ++ closing ++ rest) := by
        cases quotes <;> simp [LexemeSort.extent, quotedExtent]
      rw [extent, List.length_cons]
      omega
  | word count bare => exact le_wordExtent bare count rest
  | @lineComment line _ inner =>
      have run : line.length ≤ runLength (· != '\n') (line ++ rest) :=
        le_runLength (by simpa using inner) rest
      simp only [List.cons_append, extent, lineCommentExtent, List.length_cons]
      omega
  | closedComment first =>
      have tail := le_blockCommentTail first rest
      simp [extent, blockCommentExtent]
      omega
  | @openComment inside unclosed =>
      rw [List.append_nil]
      rcases blockCommentTail_cases inside with ⟨other, behind, rfl, -⟩ | ⟨-, length⟩
      · exact absurd ⟨other, behind, by simp⟩ unclosed
      · simp only [extent, blockCommentExtent, length, List.length_cons]
        omega
  | blank _ separating => exact le_runLength separating rest
  | symbol mark => simp [extent, symbolExtent, String.length_toList]
  | stray char => simp [extent]

theorem Matches.length_pos (found : sort.Matches word rest) : 0 < word.length := by
  cases found with
  | whole nonempty | blank nonempty => exact List.length_pos_iff.mpr nonempty
  | word count bare =>
      cases bare
      exact Nat.zero_lt_succ _
  | symbol mark => cases mark <;> decide
  | fraction nonempty =>
      rw [List.length_append]
      exact Nat.add_pos_left (List.length_pos_iff.mpr nonempty) _
  | _ => exact Nat.zero_lt_succ _

/-- A sort has an extent where its pattern matches. -/
theorem Matches.extent_pos (found : sort.Matches word rest) : 0 < sort.extent (word ++ rest) :=
  Nat.lt_of_lt_of_le found.length_pos found.le_extent

/-- No number goes on beyond the first of two points in a row. -/
theorem Matches.points_behind {front behind : List Char} (found : Matches .number word rest)
    (points : word ++ rest = front ++ '.' :: '.' :: behind) : word.length ≤ front.length := by
  apply Nat.le_of_not_lt
  intro beyond
  have undigital : isDigit '.' ≠ true := by decide
  have initial : front <+: word ++ rest := ⟨'.' :: '.' :: behind, points.symm⟩
  have shorter : front <+: word :=
    List.prefix_of_prefix_length_le initial (List.prefix_append word rest) beyond.le
  obtain ⟨more, rfl⟩ := shorter
  rw [List.append_assoc, List.append_cancel_left_eq] at points
  cases more with
  | nil => simp at beyond
  | cons point more =>
      obtain ⟨rfl, second⟩ : point = '.' ∧ more ++ rest = '.' :: behind := List.cons.inj points
      generalize inner : front ++ '.' :: more = word at found
      cases found with
      | quoted quotes => cases quotes
      | whole _ digital => exact undigital (digital '.' (by simp [← inner]))
      | @fraction digits fraction _ _ digital fractional single =>
          have beforePoint : '.' ∉ digits := fun member => undigital (digital '.' member)
          have behindPoint : '.' ∉ fraction := fun member => undigital (fractional '.' member)
          have sides := (List.append_cons_inj_of_notMem beforePoint behindPoint).mp inner.symm
          obtain ⟨-, -, rfl⟩ := sides
          exact single (by rw [second]; rfl)

end LexemeSort

end Onepass
