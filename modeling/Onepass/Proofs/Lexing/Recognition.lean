import Mathlib.Data.List.TakeWhile
import Onepass.Proofs.Lexing.Layout
import Onepass.Token.Lexer

/-! # Recognising lexemes again

A lexeme that stands at the end of a line is recognised by its own characters alone: its sort is the
first that matches, and it reaches to the end of the line. This is shown of the shapes that numbers,
words and quoted literals have. The shapes are given by rules of their own, and what was recognised in
some text, whatever follows it there, has one of them.
-/

set_option autoImplicit false

namespace Onepass

open Text (isDigit isWordStart isWordPart apostrophe doubleQuote)

/-- A line ends before the text: there is none, or it begins with a line feed. -/
def Text.EndsLine (rest : List Char) : Prop :=
  ∀ char ∈ rest.head?, char = '\n'

theorem Text.endsLine_nil : EndsLine [] :=
  nofun

theorem Text.endsLine_lineFeed (rest : List Char) : EndsLine ('\n' :: rest) := by
  intro char first
  exact (Option.mem_some_iff.mp first).symm

namespace LexemeSort

open Text (EndsLine)

variable {text rest : List Char}

/-! ## The first sort that matches -/

theorem ofText_of_first {sort : LexemeSort} {earlier later : List LexemeSort}
    (order : all = earlier ++ sort :: later) (matched : 0 < sort.extent text)
    (refused : ∀ other ∈ earlier, other.extent text = 0) : ofText text = sort := by
  have found : (all.find? fun sort => 0 < sort.extent text) = some sort := by
    rw [List.find?_eq_some_iff_append]
    exact ⟨by simpa using matched, earlier, later, order, fun other member => by
      simp [refused other member]⟩
  rw [ofText, found]
  rfl

/-- What was not recognised as one of the earlier sorts begins with none of them. -/
theorem extent_eq_zero_of_ofText {earlier later : List LexemeSort} (order : all = earlier ++ later)
    (other : ofText text ∉ earlier) : ∀ sort ∈ earlier, sort.extent text = 0 := by
  intro sort member
  have none : earlier.find? (fun sort => 0 < sort.extent text) = none := by
    rw [Option.eq_none_iff_forall_ne_some]
    intro found same
    apply other
    rw [ofText, order, List.find?_append, same]
    exact List.mem_of_find?_eq_some same
  simpa using List.find?_eq_none.mp none sort member

theorem numberExtent_cons_eq_zero {first : Char} (plain : isDigit first = false) (rest : List Char) :
    numberExtent (first :: rest) = 0 := by
  simp [numberExtent, runLength, plain]

theorem isDigit_of_numberExtent {first : Char} (absent : numberExtent (first :: rest) = 0) :
    isDigit first = false := by
  rw [Bool.eq_false_iff]
  intro digit
  simp [numberExtent, runLength, digit] at absent

theorem elseIfExtent_cons_eq_zero {first : Char} (other : first ≠ 'e') (rest : List Char) :
    elseIfExtent (first :: rest) = 0 := by
  unfold elseIfExtent
  split
  case _ same => exact absurd (List.cons.inj same).1 other
  case _ => rfl

theorem quotedExtent_cons_eq_zero {quote first : Char} (other : first ≠ quote) (rest : List Char) :
    quotedExtent quote (first :: rest) = 0 := by
  simp [quotedExtent, other]

/-- White space between tokens is recognised by its first character. -/
theorem ofText_separator {first : Char} (separates : isSeparator first = true) (rest : List Char) :
    ofText (first :: rest) = .blank := by
  have matched : 0 < extent .blank (first :: rest) := by
    simp [extent, runLength, separates]
  have cases : first = ' ' ∨ first = '\t' ∨ first = '\x0c' ∨ first = '\r' ∨ first = '\n' := by
    simpa [isSeparator, or_assoc] using separates
  have refused : ∀ sort ∈ [elseIf, number, string, char, word, lineComment, blockComment],
      sort.extent (first :: rest) = 0 := by
    simp only [List.forall_mem_cons]
    rcases cases with rfl | rfl | rfl | rfl | rfl <;>
      exact ⟨rfl, rfl, rfl, rfl, rfl, rfl, rfl, List.forall_mem_nil _⟩
  exact ofText_of_first rfl matched refused

/-! ## Numbers -/

/-- Digits, and possibly a point with digits behind it. -/
inductive IsNumber : List Char → Prop
  | whole {digits : List Char} (nonempty : digits ≠ []) (digital : ∀ char ∈ digits, isDigit char) :
      IsNumber digits
  | fraction {digits behind : List Char} (nonempty : digits ≠ [])
      (digital : ∀ char ∈ digits, isDigit char) (behindDigital : ∀ char ∈ behind, isDigit char) :
      IsNumber (digits ++ '.' :: behind)

theorem runLength_append {isMember : Char → Bool} {run : List Char}
    (members : ∀ char ∈ run, isMember char = true)
    (ended : ∀ char ∈ rest.head?, isMember char = false) :
    runLength isMember (run ++ rest) = run.length := by
  have none : rest.takeWhile isMember = [] := by
    cases rest with
    | nil => rfl
    | cons first behind => exact List.takeWhile_cons_of_neg (by simp [ended first rfl])
  rw [runLength, List.takeWhile_append_of_pos members, none, List.append_nil]

theorem take_runLength (isMember : Char → Bool) (text : List Char) :
    text.take (runLength isMember text) = text.takeWhile isMember :=
  (List.prefix_iff_eq_take.mp (List.takeWhile_prefix isMember)).symm

/-- What is recognised as a number has the shape of one. -/
theorem isNumber_take (matched : 0 < numberExtent text) : IsNumber (text.take (numberExtent text)) := by
  have digital : ∀ char ∈ text.takeWhile isDigit, isDigit char := fun char => List.mem_takeWhile_imp
  have positive : runLength isDigit text ≠ 0 := by
    intro zero
    simp [numberExtent, zero] at matched
  have nonempty : text.takeWhile isDigit ≠ [] :=
    List.ne_nil_of_length_pos (Nat.pos_of_ne_zero positive)
  have extent : numberExtent text =
      runLength isDigit text + fractionExtent (text.drop (runLength isDigit text)) := by
    simp [numberExtent, positive]
  rw [extent, List.take_add, take_runLength]
  generalize text.drop (runLength isDigit text) = behind
  unfold fractionExtent
  split
  case _ => simpa using IsNumber.whole nonempty digital
  case _ rest _ =>
    rw [Nat.add_comm, List.take_succ_cons, take_runLength]
    exact .fraction nonempty digital fun char => List.mem_takeWhile_imp
  case _ => simpa using IsNumber.whole nonempty digital

theorem IsNumber.ne_nil (isNumber : IsNumber text) : text ≠ [] := by
  cases isNumber with
  | whole nonempty _ => exact nonempty
  | fraction => simp

/-- A number ends before the text: neither a digit nor a point follows, or two points follow a number that
does not end in a point itself. -/
inductive ClosesNumber (number : List Char) : List Char → Prop
  | other {rest : List Char} (plain : ∀ char ∈ rest.head?, isDigit char = false ∧ char ≠ '.') :
      ClosesNumber number rest
  | points (rest : List Char) (unpointed : number.getLast? ≠ some '.') :
      ClosesNumber number ('.' :: '.' :: rest)

theorem ClosesNumber.not_digit (closes : ClosesNumber text rest) :
    ∀ char ∈ rest.head?, isDigit char = false := by
  cases closes with
  | other plain => exact fun char first => (plain char first).1
  | points rest _ =>
      intro char first
      obtain rfl := Option.mem_some_iff.mp first
      rfl

theorem closesNumber_of_endsLine (ended : EndsLine rest) : ClosesNumber text rest := by
  refine .other fun char first => ?_
  rw [ended char first]
  exact ⟨rfl, by decide⟩

theorem IsNumber.extent_eq (isNumber : IsNumber text) (closes : ClosesNumber text rest) :
    numberExtent (text ++ rest) = text.length := by
  have unextended := closes.not_digit
  cases isNumber with
  | whole nonempty digital =>
      have bare : fractionExtent rest = 0 := by
        cases closes with
        | points rest _ => rfl
        | other plain =>
            unfold fractionExtent
            split
            case _ => rfl
            case _ => exact absurd rfl (plain '.' rfl).2
            case _ => rfl
      simp [numberExtent, runLength_append digital unextended, nonempty, bare]
  | @fraction digits behind nonempty digital behindDigital =>
      have run : runLength isDigit (digits ++ '.' :: (behind ++ rest)) = digits.length :=
        runLength_append digital fun char first => by
          obtain rfl := Option.mem_some_iff.mp first
          rfl
      have pointed : fractionExtent ('.' :: (behind ++ rest)) = 1 + behind.length := by
        rw [fractionExtent, runLength_append behindDigital unextended]
        -- The point is not the first of two: a digit is behind it, or what closes the number.
        intro tail second
        cases behind with
        | nil =>
            cases closes with
            | other plain => exact (plain '.' (by rw [← List.nil_append rest, second]; rfl)).2 rfl
            | points rest unpointed => exact unpointed List.getLast?_concat
        | cons digit more =>
            obtain rfl : digit = '.' := (List.cons.inj second).1
            cases behindDigital '.' List.mem_cons_self
      simp [numberExtent, run, nonempty, pointed]
      omega

theorem IsNumber.ofText_eq (isNumber : IsNumber text) (closes : ClosesNumber text rest) :
    ofText (text ++ rest) = .number := by
  have extent := isNumber.extent_eq closes
  cases text with
  | nil => exact absurd rfl isNumber.ne_nil
  | cons first behind =>
      have matched : 0 < numberExtent (first :: (behind ++ rest)) := by
        rw [← List.cons_append, extent]
        exact Nat.succ_pos _
      refine ofText_of_first (show all = [elseIf] ++ _ from rfl) matched ?_
      rintro _ member
      obtain rfl := List.mem_singleton.mp member
      refine elseIfExtent_cons_eq_zero ?_ _
      rintro rfl
      cases matched

/-! ## Words -/

/-- So many pairs of brackets. -/
def brackets : Nat → List Char
  | 0 => []
  | count + 1 => '[' :: ']' :: brackets count

/-- A word with the pairs of brackets directly after it. -/
inductive IsWord : List Char → Prop
  | intro {first : Char} {part : List Char} (count : Nat) (starts : isWordStart first = true)
      (plain : isDigit first = false) (parts : ∀ char ∈ part, isWordPart char = true) :
      IsWord (first :: (part ++ brackets count))

theorem take_bracketsExtent (text : List Char) :
    ∃ count, text.take (bracketsExtent text) = brackets count := by
  fun_induction bracketsExtent text with
  | case1 rest ih =>
      obtain ⟨count, same⟩ := ih
      refine ⟨count + 1, ?_⟩
      rw [Nat.add_comm, List.take_succ_cons, List.take_succ_cons, same]
      rfl
  | case2 => exact ⟨0, rfl⟩

theorem bracketsExtent_append (count : Nat) (ended : ∀ char ∈ rest.head?, char ≠ '[') :
    bracketsExtent (brackets count ++ rest) = (brackets count).length := by
  induction count with
  | zero =>
      change bracketsExtent rest = 0
      unfold bracketsExtent
      split
      case _ => exact absurd rfl (ended '[' rfl)
      case _ => rfl
  | succ count ih =>
      change 2 + bracketsExtent (brackets count ++ rest) = (brackets count).length + 1 + 1
      omega

/-- What is recognised as a word has the shape of one. -/
theorem isWord_take (found : ofText text = .word) : IsWord (text.take (wordExtent text)) := by
  cases text with
  | nil => cases found
  | cons first behind =>
      have matched : 0 < wordExtent (first :: behind) := by
        have positive := extent_ofText_pos (List.cons_ne_nil first behind)
        rw [found] at positive
        exact positive
      have plain : isDigit first = false :=
        isDigit_of_numberExtent <| extent_eq_zero_of_ofText (show all = [elseIf, number] ++ _ from rfl)
          (by rw [found]; decide) .number (by decide)
      by_cases starts : isWordStart first = true
      · obtain ⟨count, folded⟩ := take_bracketsExtent (behind.drop (runLength isWordPart behind))
        have extent : wordExtent (first :: behind) = runLength isWordPart behind +
            bracketsExtent (behind.drop (runLength isWordPart behind)) + 1 := by
          simp only [wordExtent, starts, if_true]
          omega
        rw [extent, List.take_succ_cons, List.take_add, take_runLength, folded]
        exact .intro count starts plain fun char => List.mem_takeWhile_imp
      · simp [wordExtent, starts] at matched

theorem IsWord.extent_eq (isWord : IsWord text) (ended : EndsLine rest) :
    wordExtent (text ++ rest) = text.length := by
  obtain @⟨first, part, count, starts, plain, parts⟩ := isWord
  have folded : bracketsExtent (brackets count ++ rest) = (brackets count).length :=
    bracketsExtent_append count fun char first => by
      rw [ended char first]
      decide
  have run : runLength isWordPart (part ++ (brackets count ++ rest)) = part.length :=
    runLength_append parts fun char first => by
      cases count with
      | zero =>
          rw [ended char first]
          rfl
      | succ count =>
          obtain rfl := Option.mem_some_iff.mp first
          rfl
  simp [wordExtent, starts, run, folded]
  omega

theorem mem_brackets {count : Nat} {char : Char} (member : char ∈ brackets count) :
    char = '[' ∨ char = ']' := by
  induction count with
  | zero => cases member
  | succ count ih =>
      rcases List.mem_cons.mp member with rfl | member
      · exact .inl rfl
      · exact (List.mem_cons.mp member).elim .inr ih

/-- A word holds no blanks. -/
theorem IsWord.isInlineBlank_eq (isWord : IsWord text) :
    ∀ char ∈ text, isInlineBlank char = false := by
  have unblank {char : Char} (part : isWordPart char = true) : isInlineBlank char = false := by
    rw [Bool.eq_false_iff]
    intro blank
    have cases : char = ' ' ∨ char = '\t' := by simpa [isInlineBlank] using blank
    rcases cases with rfl | rfl <;> cases part
  obtain @⟨first, part, count, starts, plain, parts⟩ := isWord
  intro char member
  rcases List.mem_cons.mp member with rfl | member
  · exact unblank (by simp [isWordPart, starts])
  · rcases List.mem_append.mp member with member | member
    · exact unblank (parts char member)
    · rcases mem_brackets member with rfl | rfl <;> rfl

theorem elseIfExtent_pos (matched : 0 < elseIfExtent text) :
    ∃ blank tail, isInlineBlank blank = true ∧ text = "else".toList ++ blank :: tail := by
  unfold elseIfExtent at matched
  split at matched
  case _ rest =>
    cases rest with
    | nil => cases matched
    | cons blank tail =>
        cases isBlank : isInlineBlank blank with
        | true => exact ⟨blank, tail, isBlank, rfl⟩
        | false =>
            -- Without a blank the two words are one.
            have none : runLength isInlineBlank (blank :: tail) = 0 := by
              simp [runLength, isBlank]
            rw [none] at matched
            dsimp only at matched
            split at matched <;> cases matched
  case _ => cases matched

/-- A word at the end of a line is no first half of `else if`. -/
theorem IsWord.elseIfExtent_eq (isWord : IsWord text) (ended : EndsLine rest) :
    elseIfExtent (text ++ rest) = 0 := by
  apply Nat.eq_zero_of_not_pos
  intro matched
  obtain ⟨blank, tail, isBlank, same⟩ := elseIfExtent_pos matched
  rcases List.append_eq_append_iff.mp same with ⟨excess, word, behind⟩ | ⟨excess, word, behind⟩
  · cases excess with
    | nil =>
        obtain rfl : blank = '\n' := ended blank (by rw [behind]; rfl)
        cases isBlank
    | cons char more =>
        obtain rfl : char = '\n' := ended char (by rw [behind]; rfl)
        have member : '\n' ∈ "else".toList := by rw [word]; simp
        revert member
        decide
  · cases excess with
    | nil =>
        obtain rfl : blank = '\n' := ended blank (by rw [← List.nil_append rest, ← behind]; rfl)
        cases isBlank
    | cons char more =>
        obtain rfl : blank = char := (List.cons.inj behind).1
        have solid := isWord.isInlineBlank_eq blank (by rw [word]; simp)
        rw [isBlank] at solid
        cases solid

theorem IsWord.ofText_eq (isWord : IsWord text) (ended : EndsLine rest) :
    ofText (text ++ rest) = .word := by
  have extent := isWord.extent_eq ended
  have split := isWord.elseIfExtent_eq ended
  obtain @⟨first, part, count, starts, plain, parts⟩ := isWord
  have matched : 0 < wordExtent (first :: (part ++ brackets count) ++ rest) := by
    rw [extent]
    exact Nat.succ_pos _
  have unquoted {quote : Char} (other : isWordStart quote = false) :
      quotedExtent quote (first :: (part ++ brackets count) ++ rest) = 0 := by
    refine quotedExtent_cons_eq_zero ?_ _
    rintro rfl
    rw [other] at starts
    cases starts
  refine ofText_of_first (show all = [elseIf, number, string, char] ++ _ from rfl) matched ?_
  simp only [List.forall_mem_cons]
  exact ⟨split, numberExtent_cons_eq_zero plain _, unquoted rfl, unquoted rfl, List.forall_mem_nil _⟩

/-! ## Quoted literals and the pair of words -/

theorem ofText_doubleQuote (rest : List Char) : ofText (doubleQuote :: rest) = .string := by
  have matched : 0 < quotedExtent doubleQuote (doubleQuote :: rest) := by
    rw [quotedExtent, if_pos (beq_self_eq_true _)]
    omega
  refine ofText_of_first (show all = [elseIf, number] ++ _ from rfl) matched ?_
  simp only [List.forall_mem_cons]
  exact ⟨rfl, rfl, List.forall_mem_nil _⟩

theorem ofText_apostrophe (rest : List Char) : ofText (apostrophe :: rest) = .char := by
  have matched : 0 < quotedExtent apostrophe (apostrophe :: rest) := by
    rw [quotedExtent, if_pos (beq_self_eq_true _)]
    omega
  refine ofText_of_first (show all = [elseIf, number, string] ++ _ from rfl) matched ?_
  simp only [List.forall_mem_cons]
  exact ⟨rfl, rfl, rfl, List.forall_mem_nil _⟩

theorem quotedTail_closed {quote : Char} (other : quote ≠ '\\') (rest : List Char) :
    quotedTail quote (quote :: rest) = 1 := by
  rw [quotedTail]
  · simp
  · exact fun _ _ same => absurd same other

theorem quotedTail_plain {quote first : Char} (inner : first ≠ quote) (plain : first ≠ '\\')
    (rest : List Char) : quotedTail quote (first :: rest) = 1 + quotedTail quote rest := by
  rw [quotedTail]
  · simp [inner, plain]
  · exact fun _ _ same => absurd same plain

/-- A reference reaches to the quote behind its brace. A backslash at the end of the name takes the
brace with it, never the quote. -/
theorem quotedTail_name {quote : Char} (isQuote : Literal.IsQuote quote) {name : List Char}
    (inner : quote ∉ name) (rest : List Char) :
    quotedTail quote (name ++ '\x7d' :: quote :: rest) = name.length + 2 := by
  obtain ⟨backslash, -, -, brace⟩ := isQuote.ne
  fun_induction quotedTail quote name with
  | case1 =>
      rw [List.nil_append, quotedTail_plain brace.symm (by decide), quotedTail_closed backslash]
      rfl
  | case2 char more ih =>
      have shorter := ih fun member => inner (List.mem_cons_of_mem _ (List.mem_cons_of_mem _ member))
      rw [List.cons_append, List.cons_append, quotedTail, shorter, List.length_cons, List.length_cons]
      omega
  | case3 first more _ closes =>
      obtain rfl : first = quote := by simpa using closes
      exact absurd List.mem_cons_self inner
  | case4 first more last _ escapes =>
      obtain rfl : first = '\\' := by simpa using escapes
      cases more with
      | nil =>
          rw [List.singleton_append, quotedTail, quotedTail_closed backslash]
          rfl
      | cons char more => exact absurd rfl (last char more rfl)
  | case5 first more _ other plain ih =>
      have shorter := ih fun member => inner (List.mem_cons_of_mem _ member)
      rw [List.cons_append, quotedTail_plain (by simpa using other) (by simpa using plain), shorter,
        List.length_cons]
      omega

end LexemeSort

/-- What is recognised is cut off, and the rest is cut by itself. -/
theorem Lexeme.cut_of_recognised {text rest : List Char} {sort : LexemeSort} (nonempty : text ≠ [])
    (recognised : .ofText (text ++ rest) = sort) (extent : sort.extent (text ++ rest) = text.length) :
    cut (text ++ rest) = ⟨sort, text⟩ :: cut rest := by
  cases text with
  | nil => exact absurd rfl nonempty
  | cons first more =>
      rw [List.cons_append] at recognised extent ⊢
      rw [cut, recognised, extent, ← List.cons_append, List.take_left, List.drop_left]

end Onepass
