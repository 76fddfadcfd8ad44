import Onepass.Proofs.Lexing.Pattern
import Mathlib.Data.ENat.Basic
import Mathlib.Data.List.Nodup

/-! # The longest match is taken

The sorts of lexemes are tried by priority, and those of one priority by the greatest width that a
lexeme of the sort may have. Of two sorts that match one text, one is always tried before the other, and
it matches more of the text, unless the other one is the stray character. So every order of trying takes
the same lexeme, and it is the longest.
-/

set_option autoImplicit false

namespace Onepass

open Text (isDigit isWordStart isWordPart apostrophe doubleQuote)

/-! ## Decimal digits do not begin words -/

namespace Text

/-- No run of ten decimal digits shares a code point with the characters that begin words. -/
theorem digits_apart_from_words :
    (digitZeros.all fun nought => wordStartRanges.all fun range =>
      Nat.blt (nought + 9) range.1 || Nat.blt range.2 nought) = true := by
  decide +kernel

theorem not_isWordStart_of_isDigit {char : Char} (digit : isDigit char = true) :
    isWordStart char = false := by
  unfold isDigit digitValue? at digit
  unfold isWordStart
  by_cases basic : isBasic char = true
  · have decimal : char.isDigit = true := by simpa [basic] using digit
    have bounds : 48 ≤ char.toNat ∧ char.toNat ≤ 57 := by
      simpa [Char.isDigit, UInt32.le_iff_toNat_le] using decimal
    have letterless : char.isAlpha = false := by
      delta Char.isAlpha Char.isUpper Char.isLower
      simp [UInt32.le_iff_toNat_le]
      omega
    have other : char ≠ '_' := by
      rintro rfl
      cases decimal
    simp [basic, letterless, other]
  · simp only [basic, Bool.false_eq_true, if_false, Option.isSome_map, List.find?_isSome,
      Bool.and_eq_true, decide_eq_true_eq] at digit
    obtain ⟨nought, member, from_nought, below⟩ := digit
    simp only [basic, Bool.false_eq_true, if_false]
    rw [Bool.eq_false_iff, ne_eq, covers_iff]
    rintro ⟨range, among, lower, upper⟩
    have table := List.all_eq_true.mp digits_apart_from_words nought member
    have apart := List.all_eq_true.mp table range among
    simp only [Bool.or_eq_true, Nat.blt_eq] at apart
    omega

end Text

theorem Symbol.spellings_nodup : (Symbol.all.map Symbol.spelling).Nodup := by
  simp [Symbol.all, Symbol.spelling]

theorem Symbol.mem_all (mark : Symbol) : mark ∈ Symbol.all := by
  cases mark <;> decide

namespace LexemeSort

variable {sort other : LexemeSort} {text word rest : List Char}

/-! ## The order of trying -/

/-- The priority of a sort. Those of a higher one are tried first. -/
def priority : LexemeSort → Int
  | elseIf => 2
  | stray => -1
  | _ => 0

/-- The greatest width of a lexeme of the sort, if there is one. -/
def width : LexemeSort → ℕ∞
  | symbol mark => mark.spelling.length
  | stray => 1
  | _ => ⊤

/-- The first sort has to be tried before the second one. -/
def TriedBefore (sort other : LexemeSort) : Prop :=
  other.priority < sort.priority ∨ other.priority = sort.priority ∧ other.width < sort.width

/-- An order in which the sorts may be tried. Nothing is said about sorts of the same priority and
width. -/
structure IsOrderOfTrial (order : List LexemeSort) : Prop where
  complete : ∀ sort, sort ∈ order
  sorted : order.Pairwise fun earlier later => ¬ later.TriedBefore earlier

/-- A lexeme is never wider than its sort allows. -/
theorem extent_le_width (sort : LexemeSort) (text : List Char) :
    (sort.extent text : ℕ∞) ≤ sort.width := by
  cases sort with
  | symbol mark =>
      simp only [extent, symbolExtent, width]
      split <;> simp
  | stray => simp [extent, width]
  | _ => exact le_top

theorem isOrderOfTrial_all : IsOrderOfTrial all where
  complete sort := by
    cases sort with
    | symbol mark => simp [all, Symbol.mem_all]
    | _ => simp [all]
  sorted := by
    unfold TriedBefore
    decide +kernel

/-! ## Sorts without a greatest width -/

/-- The sort has no greatest width, and no higher priority makes up for that. -/
def Unbounded (sort : LexemeSort) : Prop :=
  sort.priority = 0 ∧ sort.width = ⊤

/-- The only unbounded sort that a text may begin with, by its first one or two characters. -/
def opened : List Char → Option LexemeSort
  | [] => none
  | first :: rest =>
    if isDigit first then some .number
    else if isWordStart first then some .word
    else if first = doubleQuote then some .string
    else if first = apostrophe then some .char
    else if isSeparator first then some .blank
    else if first = '/' ∧ rest.head? = some '/' then some .lineComment
    else if first = '/' ∧ rest.head? = some '*' then some .blockComment
    else none

theorem shape (sort : LexemeSort) :
    sort = elseIf ∨ sort.Unbounded ∨ (∃ mark, sort = symbol mark) ∨ sort = stray := by
  cases sort with
  | elseIf => exact .inl rfl
  | symbol mark => exact .inr (.inr (.inl ⟨mark, rfl⟩))
  | stray => exact .inr (.inr (.inr rfl))
  | _ => exact .inr (.inl ⟨rfl, rfl⟩)

theorem opened_of_unbounded (unbounded : sort.Unbounded) (matched : 0 < sort.extent text) :
    opened text = some sort := by
  obtain ⟨word, rest, rfl, -, found⟩ := finds_of_extent matched
  obtain ⟨priority, width⟩ := unbounded
  cases found with
  | elseIf => cases priority
  | symbol => cases width
  | stray => cases priority
  | whole nonempty digital | fraction nonempty digital =>
      obtain ⟨first, more, rfl⟩ := List.exists_cons_of_ne_nil nonempty
      simp [opened, digital first List.mem_cons_self]
  | quoted quotes => cases quotes <;> rfl
  | word count bare =>
      obtain @⟨first, part, starts, -⟩ := bare
      have undigital : isDigit first = false := by
        rw [Bool.eq_false_iff]
        intro digit
        simp [Text.not_isWordStart_of_isDigit digit] at starts
      simp [opened, undigital, starts]
  | lineComment | closedComment | openComment => rfl
  | blank nonempty separating =>
      obtain ⟨first, more, rfl⟩ := List.exists_cons_of_ne_nil nonempty
      have separates := separating first List.mem_cons_self
      simp only [isSeparator, Bool.or_eq_true, beq_iff_eq] at separates
      rcases separates with (((rfl | rfl) | rfl) | rfl) | rfl <;> rfl

theorem opened_symbol (mark : Symbol) (rest : List Char) :
    opened (mark.spelling.toList ++ rest) = none ∨ mark = .slash := by
  cases mark <;> first | exact .inr rfl | exact .inl rfl

theorem symbolExtent_eq {mark : Symbol} (matched : 0 < symbolExtent mark text) :
    symbolExtent mark text = mark.spelling.length ∧ mark.spelling.toList <+: text := by
  unfold symbolExtent at matched ⊢
  split at matched
  case isTrue initial => exact ⟨if_pos initial, List.isPrefixOf_iff_prefix.mp initial⟩
  case isFalse => cases matched

/-! ## Two sorts that match one text -/

/-- A text that begins with `else if` begins with the word `else`, and the pair goes beyond it. -/
theorem opened_elseIf (matched : 0 < elseIfExtent text) :
    opened text = some .word ∧ wordExtent text < elseIfExtent text := by
  obtain ⟨_, rest, rfl, length, found⟩ := finds_elseIf matched
  change _ = elseIfExtent _ at length
  cases found with
  | quoted quotes => cases quotes
  | @elseIf blanks _ nonempty inline ended =>
      refine ⟨rfl, ?_⟩
      rw [← length]
      obtain ⟨first, more, rfl⟩ := List.exists_cons_of_ne_nil nonempty
      have blank := inline first List.mem_cons_self
      simp only [isInlineBlank, Bool.or_eq_true, beq_iff_eq] at blank
      have part : runLength isWordPart (['l', 's', 'e'] ++ first :: (more ++ "if".toList ++ rest)) = 3 :=
        runLength_append (List.all_eq_true.mp (by decide)) fun char head => by
          obtain rfl := Option.mem_some_iff.mp head
          rcases blank with rfl | rfl <;> rfl
      have unfolded : bracketsExtent (first :: (more ++ "if".toList ++ rest)) = 0 := by
        rcases blank with rfl | rfl <;> rfl
      have lone : wordExtent ('e' :: (['l', 's', 'e'] ++ first :: (more ++ "if".toList ++ rest))) =
          4 := by
        have starts : isWordStart 'e' = true := rfl
        rw [wordExtent, if_pos starts, part]
        exact congrArg (4 + ·) unfolded
      have same : "else".toList ++ (first :: more ++ "if".toList) ++ rest =
          'e' :: (['l', 's', 'e'] ++ first :: (more ++ "if".toList ++ rest)) := by simp
      rw [same, lone, List.length_append]
      change 4 < 4 + _
      simp

theorem opened_slash (rest : List Char) :
    opened ('/' :: rest) =
      if rest.head? = some '/' then some .lineComment
      else if rest.head? = some '*' then some .blockComment else none := by
  have undigital : isDigit '/' = false := rfl
  have unworded : isWordStart '/' = false := rfl
  have unseparating : isSeparator '/' = false := rfl
  have unquoted : '/' ≠ doubleQuote ∧ '/' ≠ apostrophe := by decide
  simp [opened, undigital, unworded, unseparating, unquoted]

/-- A slash that begins a comment is outdone by the comment. -/
theorem one_lt_extent_of_slash (unbounded : sort.Unbounded) (matched : 0 < sort.extent text)
    (slash : ['/'] <+: text) : 1 < sort.extent text := by
  have opens := opened_of_unbounded unbounded matched
  obtain ⟨rest, rfl⟩ := slash
  rw [List.singleton_append, opened_slash] at opens
  split at opens
  case isTrue line =>
    obtain ⟨behind, rfl⟩ := List.head?_eq_some_iff.mp line
    obtain rfl := Option.some.inj opens
    simp only [List.singleton_append, extent, lineCommentExtent]
    omega
  case isFalse =>
    split at opens
    case isTrue block =>
      obtain ⟨behind, rfl⟩ := List.head?_eq_some_iff.mp block
      obtain rfl := Option.some.inj opens
      simp only [List.singleton_append, extent, blockCommentExtent]
      omega
    case isFalse => cases opens

/-- Nothing but a slash begins like an unbounded sort. -/
theorem eq_slash_of_unbounded {mark : Symbol} (unbounded : sort.Unbounded)
    (matched : 0 < sort.extent text) (initial : mark.spelling.toList <+: text) : mark = .slash := by
  obtain ⟨rest, rfl⟩ := initial
  refine (opened_symbol mark rest).resolve_left fun none => ?_
  rw [opened_of_unbounded unbounded matched] at none
  cases none

theorem eq_elseIf_of_triedBefore (before : sort.TriedBefore other) (unbounded : other.Unbounded) :
    sort = elseIf := by
  obtain ⟨priority, width⟩ := unbounded
  rw [TriedBefore, priority, width] at before
  cases sort <;> simp [LexemeSort.priority] at before ⊢

/-- Of two sorts that match a text, the one that is tried first matches more of it, unless the other one
is the stray character. -/
theorem extent_lt_of_triedBefore (before : sort.TriedBefore other) (matched : 0 < sort.extent text)
    (otherMatched : 0 < other.extent text) (proper : other ≠ stray) :
    other.extent text < sort.extent text := by
  rcases other.shape with rfl | unbounded | ⟨mark, rfl⟩ | rfl
  · cases sort <;> simp [TriedBefore, priority, width] at before
  · obtain rfl := eq_elseIf_of_triedBefore before unbounded
    obtain ⟨opens, shorter⟩ := opened_elseIf matched
    obtain rfl := Option.some.inj ((opened_of_unbounded unbounded otherMatched).symm.trans opens)
    exact shorter
  · obtain ⟨length, initial⟩ := symbolExtent_eq otherMatched
    rw [extent, length]
    rcases sort.shape with rfl | unbounded | ⟨leading, rfl⟩ | rfl
    · obtain ⟨rest, rfl⟩ := initial
      have opens := (opened_elseIf matched).1
      rcases opened_symbol mark rest with none | rfl
      · rw [none] at opens
        cases opens
      · cases matched
    · obtain rfl := eq_slash_of_unbounded unbounded matched initial
      exact one_lt_extent_of_slash unbounded matched initial
    · rw [extent, (symbolExtent_eq matched).1]
      simpa [TriedBefore, priority, width] using before
    · simp [TriedBefore, priority] at before
  · exact absurd rfl proper

/-- Two sorts that match a text are the same if neither is tried before the other. -/
theorem eq_of_not_triedBefore (notBefore : ¬ sort.TriedBefore other)
    (notAfter : ¬ other.TriedBefore sort)
    (matched : 0 < sort.extent text) (otherMatched : 0 < other.extent text) : sort = other := by
  have samePriority : sort.priority = other.priority := by
    simp only [TriedBefore, not_or] at notBefore notAfter
    omega
  have sameWidth : sort.width = other.width := by
    simp only [TriedBefore, samePriority, lt_self_iff_false, true_and, false_or] at notBefore notAfter
    exact le_antisymm (not_lt.mp notBefore) (not_lt.mp notAfter)
  rcases sort.shape with rfl | unbounded | ⟨mark, rfl⟩ | rfl
  · cases other <;> first | rfl | cases samePriority
  · have otherUnbounded : other.Unbounded :=
      ⟨samePriority ▸ unbounded.1, sameWidth ▸ unbounded.2⟩
    have opens := opened_of_unbounded unbounded matched
    exact Option.some.inj (opens.symm.trans (opened_of_unbounded otherUnbounded otherMatched))
  · rcases other.shape with rfl | unbounded | ⟨second, rfl⟩ | rfl
    · cases samePriority
    · cases sameWidth.trans unbounded.2
    · obtain ⟨length, initial⟩ := symbolExtent_eq matched
      obtain ⟨otherLength, otherInitial⟩ := symbolExtent_eq otherMatched
      have sameLength : mark.spelling.toList.length = second.spelling.toList.length := by
        simpa [width, String.length_toList] using sameWidth
      have initials := List.prefix_of_prefix_length_le initial otherInitial sameLength.le
      have samePrefix := initials.eq_of_length sameLength
      exact congrArg symbol (List.inj_on_of_nodup_map Symbol.spellings_nodup mark.mem_all second.mem_all
        (String.toList_inj.mp samePrefix))
    · cases samePriority
  · cases other <;> first | rfl | cases samePriority

/-! ## The sort that is taken -/

/-- Nothing that matches has to be tried before the first sort that does. -/
theorem IsOrderOfTrial.not_before_first {order : List LexemeSort} {first : LexemeSort}
    (isOrder : IsOrderOfTrial order)
    (found : (order.find? fun sort => 0 < sort.extent text) = some first)
    (matched : 0 < sort.extent text) : ¬ sort.TriedBefore first := by
  obtain ⟨-, earlier, later, rfl, refused⟩ := List.find?_eq_some_iff_append.mp found
  rcases List.mem_append.mp (isOrder.complete sort) with member | member
  · simpa [matched] using refused sort member
  · rcases List.mem_cons.mp member with rfl | member
    · simp [TriedBefore]
    · exact (List.pairwise_cons.mp (List.pairwise_append.mp isOrder.sorted).2.1).1 sort member

theorem IsOrderOfTrial.exists_first {order : List LexemeSort} (isOrder : IsOrderOfTrial order)
    (nonempty : text ≠ []) :
    ∃ first, (order.find? fun sort => 0 < sort.extent text) = some first := by
  rw [← Option.isSome_iff_exists, List.find?_isSome]
  refine ⟨stray, isOrder.complete _, ?_⟩
  simpa [extent, List.length_pos_iff] using nonempty

theorem find?_all (nonempty : text ≠ []) :
    (all.find? fun sort => 0 < sort.extent text) = some (ofText text) := by
  obtain ⟨first, found⟩ := isOrderOfTrial_all.exists_first nonempty
  rw [ofText, found]
  rfl

/-- Every order of trying takes the sort that is recognised. -/
theorem IsOrderOfTrial.find?_eq {order : List LexemeSort} (isOrder : IsOrderOfTrial order)
    (nonempty : text ≠ []) : (order.find? fun sort => 0 < sort.extent text) = some (ofText text) := by
  obtain ⟨first, found⟩ := isOrder.exists_first nonempty
  have recognised := find?_all nonempty
  have firstMatched : 0 < first.extent text := by simpa using List.find?_some found
  have matched := extent_ofText_pos nonempty
  rw [found, eq_of_not_triedBefore (isOrderOfTrial_all.not_before_first recognised firstMatched)
    (isOrder.not_before_first found matched) firstMatched matched]

theorem ofText_triedBefore (nonempty : text ≠ []) (matched : 0 < sort.extent text)
    (other : sort ≠ ofText text) : (ofText text).TriedBefore sort := by
  by_contra notBefore
  have notAfter := isOrderOfTrial_all.not_before_first (find?_all nonempty) matched
  exact other (eq_of_not_triedBefore notAfter notBefore matched (extent_ofText_pos nonempty))

theorem extent_le_ofText (nonempty : text ≠ []) (matched : 0 < sort.extent text) :
    sort.extent text ≤ (ofText text).extent text ∧
      (sort.extent text = (ofText text).extent text → sort = ofText text ∨ sort = stray) := by
  have progress := extent_ofText_pos nonempty
  by_cases same : sort = ofText text
  · rw [← same]
    exact ⟨Nat.le_refl _, fun _ => .inl rfl⟩
  · by_cases proper : sort = stray
    · subst proper
      exact ⟨Nat.le_trans (Nat.min_le_left 1 _) progress, fun _ => .inr rfl⟩
    · have before := ofText_triedBefore nonempty matched same
      have shorter := extent_lt_of_triedBefore before progress matched proper
      exact ⟨shorter.le, fun equal => absurd equal shorter.ne⟩

theorem ofText_eq_of_unbounded (unbounded : sort.Unbounded) (matched : 0 < sort.extent text)
    (single : elseIfExtent text = 0) : ofText text = sort := by
  have nonempty : text ≠ [] := by
    rintro rfl
    cases opened_of_unbounded unbounded matched
  by_contra other
  have pair := eq_elseIf_of_triedBefore (ofText_triedBefore nonempty matched (Ne.symm other)) unbounded
  have progress := extent_ofText_pos nonempty
  rw [pair, extent, single] at progress
  cases progress

/-- The word is the longest match before the rest of the text, and it is of the given sort. -/
structure IsLongestMatch (taken : LexemeSort) (word rest : List Char) : Prop where
  matched : taken.Matches word rest
  /-- In every order of trying, the sort is the first one whose pattern matches anything. -/
  first : ∀ order, IsOrderOfTrial order → ∃ earlier later, order = earlier ++ taken :: later ∧
    ∀ sort ∈ earlier, ∀ other behind, other ++ behind = word ++ rest → ¬ sort.Matches other behind
  /-- No pattern matches more of the text, and only the stray one may match as much. -/
  longest : ∀ (sort : LexemeSort) (other behind), other ++ behind = word ++ rest →
    sort.Matches other behind → other.length ≤ word.length ∧
      (other.length = word.length → sort = taken ∨ sort = stray)
  /-- A stray character is one at which no other pattern matches. -/
  strayLast : taken = stray → ∀ (sort : LexemeSort) (other behind),
    other ++ behind = word ++ rest → sort.Matches other behind → sort = stray
  symbolLongest : ∀ mark, taken = symbol mark → ∀ other : Symbol,
    other.spelling.toList <+: word ++ rest → other.spelling.length ≤ mark.spelling.length
  lineCommentFirst : ['/', '/'] <+: word ++ rest → taken = lineComment
  blockCommentFirst : ['/', '*'] <+: word ++ rest → taken = blockComment
  /-- A number ends before two points in a row. -/
  pointsBehind : taken = number → ∀ front behind,
    word ++ rest = front ++ '.' :: '.' :: behind → word.length ≤ front.length

/-- What is recognised at the beginning of a text is the longest match there. -/
theorem isLongestMatch_ofText (nonempty : word ++ rest ≠ [])
    (found : (ofText (word ++ rest)).Matches word rest)
    (length : word.length = (ofText (word ++ rest)).extent (word ++ rest)) :
    IsLongestMatch (ofText (word ++ rest)) word rest := by
  have longest : ∀ (sort : LexemeSort) (other behind), other ++ behind = word ++ rest →
      sort.Matches other behind → other.length ≤ word.length ∧
        (other.length = word.length → sort = ofText (word ++ rest) ∨ sort = stray) := by
    intro sort other behind same matched
    have bounded := matched.le_extent
    have positive := matched.extent_pos
    rw [same] at bounded positive
    obtain ⟨shorter, only⟩ := extent_le_ofText nonempty positive
    exact ⟨by omega, fun equal => only (by omega)⟩
  refine ⟨found, ?first, longest, ?strayLast, ?symbolLongest, ?line, ?block, ?pointsBehind⟩
  case first =>
    intro order isOrder
    obtain ⟨-, earlier, later, split, refused⟩ :=
      List.find?_eq_some_iff_append.mp (isOrder.find?_eq nonempty)
    refine ⟨earlier, later, split, fun sort member other behind same matched => ?_⟩
    have positive := matched.extent_pos
    rw [same] at positive
    simpa [positive] using refused sort member
  case strayLast =>
    intro stray sort other behind same matched
    have positive := matched.extent_pos
    rw [same] at positive
    by_contra proper
    have before := ofText_triedBefore nonempty positive fun recognised => proper (recognised.trans stray)
    rw [stray] at before
    cases sort <;> simp [TriedBefore, priority, width] at before proper
  case symbolLongest =>
    rintro mark taken other ⟨behind, same⟩
    have shorter := (longest (.symbol other) _ behind same (.symbol other behind)).1
    rw [taken] at found
    cases found with
    | quoted quotes => cases quotes
    | symbol => simpa only [String.length_toList] using shorter
  case line =>
    rintro ⟨behind, same⟩
    have matched : 0 < lineComment.extent (word ++ rest) := by
      rw [← same]
      simp [extent, lineCommentExtent]
    exact ofText_eq_of_unbounded ⟨rfl, rfl⟩ matched (by rw [← same]; rfl)
  case block =>
    rintro ⟨behind, same⟩
    have matched : 0 < blockComment.extent (word ++ rest) := by
      rw [← same]
      simp [extent, blockCommentExtent]
    exact ofText_eq_of_unbounded ⟨rfl, rfl⟩ matched (by rw [← same]; rfl)
  case pointsBehind =>
    intro taken front behind points
    rw [taken] at found
    exact found.points_behind points

end LexemeSort

namespace Lexeme

/-- A lexeme that was cut out stands between what the lexemes before and behind it stand for, and it is
what was recognised there. -/
theorem recognised_of_cut {source : List Char} {before after : List Lexeme} {lexeme : Lexeme}
    (cut : Lexeme.cut source = before ++ lexeme :: after) :
    ∃ text, text ≠ [] ∧ source = before.flatMap Lexeme.text ++ text ∧
      lexeme = ⟨.ofText text, text.take ((LexemeSort.ofText text).extent text)⟩ ∧
      after.flatMap Lexeme.text = text.drop ((LexemeSort.ofText text).extent text) := by
  induction before generalizing source with
  | nil =>
      cases source with
      | nil =>
          rw [Lexeme.cut] at cut
          cases cut
      | cons char rest =>
          rw [Lexeme.cut] at cut
          obtain ⟨rfl, rfl⟩ := List.cons.inj cut
          exact ⟨_, List.cons_ne_nil _ _, rfl, rfl, flatMap_text_cut _⟩
  | cons first before ih =>
      cases source with
      | nil =>
          rw [Lexeme.cut] at cut
          cases cut
      | cons char rest =>
          rw [Lexeme.cut] at cut
          obtain ⟨rfl, tail⟩ := List.cons.inj cut
          obtain ⟨text, nonempty, split, same, behind⟩ := ih tail
          refine ⟨text, nonempty, ?_, same, behind⟩
          rw [List.flatMap_cons, List.append_assoc, ← split, List.take_append_drop]

/-- Wherever a lexeme begins, the longest match is taken. -/
theorem longest_match_taken {source : List Char} {before after : List Lexeme} {lexeme : Lexeme}
    (cut : Lexeme.cut source = before ++ lexeme :: after) :
    source = before.flatMap Lexeme.text ++ (lexeme.text ++ after.flatMap Lexeme.text) ∧
      lexeme.sort.IsLongestMatch lexeme.text (after.flatMap Lexeme.text) := by
  obtain ⟨text, nonempty, rfl, rfl, behind⟩ := recognised_of_cut cut
  rw [behind]
  obtain ⟨word, rest, rfl, length, found⟩ :=
    LexemeSort.finds_of_extent (LexemeSort.extent_ofText_pos nonempty)
  rw [← length, List.take_left, List.drop_left]
  exact ⟨rfl, LexemeSort.isLongestMatch_ofText nonempty found length⟩

theorem slash_equal_taken :
    cut "1../=//".toList =
        [⟨.number, ['1']⟩, ⟨.symbol .dotDot, ['.', '.']⟩] ++
          ⟨.symbol .slashEqual, ['/', '=']⟩ :: [⟨.lineComment, ['/', '/']⟩] ∧
      (LexemeSort.symbol .slashEqual).IsLongestMatch ['/', '='] ['/', '/'] := by
  have pieces : cut "1../=//".toList =
      [⟨.number, ['1']⟩, ⟨.symbol .dotDot, ['.', '.']⟩] ++
        ⟨.symbol .slashEqual, ['/', '=']⟩ :: [⟨.lineComment, ['/', '/']⟩] := by
    decide +kernel
  exact ⟨pieces, (longest_match_taken pieces).2⟩

end Lexeme

end Onepass
