import Mathlib.Data.List.DropRight
import Onepass.Text.Lines
import Onepass.Token.Basic

/-! # Offsets, positions and lines

An offset counts the characters before a place of a text. The position of a place is said here by what
stands before it, not by walking there: its line by the line feeds, its column by the characters after
the last of them. The position that walking through a text arrives at is that one, and the line with
the number of a position is the part between two line feeds in which the place lies.
-/

set_option autoImplicit false

namespace Onepass

/-- The position at an offset of a text. Lines and columns are counted from one, and only line feeds
separate lines. -/
def Position.inText (text : List Char) (offset : Nat) : Position :=
  ⟨(text.take offset).count '\n' + 1, ((text.take offset).rtakeWhile (· != '\n')).length + 1⟩

/-- The part of a text that is its line with a number: it holds no line feed, lies between two of them
or at an end of the text, and has one less than its number before it. -/
def Text.IsLine (text : List Char) (number : Nat) (line : List Char) : Prop :=
  ∃ before behind, text = before ++ line ++ behind ∧ '\n' ∉ line ∧
    (before = [] ∨ before.getLast? = some '\n') ∧ (behind = [] ∨ behind.head? = some '\n') ∧
      number = before.count '\n' + 1

namespace Position

/-- Walking through a text leads to its end. -/
theorem start_after (text : List Char) : start.after text = inText text text.length := by
  unfold inText
  rw [List.take_length]
  induction text using List.reverseRecOn with
  | nil => rfl
  | append_singleton text char ih =>
      rw [after_append, ih, List.rtakeWhile_concat, List.count_append]
      change next _ char = _
      unfold next
      by_cases feed : char = '\n'
      · simp [feed]
      · simp [feed]

/-- Walking through the beginning of a text leads to the offset behind it. -/
theorem start_after_initial {text before : List Char} (initial : before <+: text) :
    start.after before = inText text before.length := by
  obtain ⟨behind, rfl⟩ := initial
  rw [start_after, inText, inText, List.take_length, List.take_left]

end Position

namespace Text

theorem splitLines_ne_nil (text : List Char) : splitLines text ≠ [] := by
  fun_cases splitLines text <;> simp_all

theorem splitLines_feed (rest : List Char) : splitLines ('\n' :: rest) = [] :: splitLines rest := by
  rw [splitLines]

theorem splitLines_cons {char : Char} (plain : char ≠ '\n') (rest : List Char) :
    ∃ line lines, splitLines rest = line :: lines ∧
      splitLines (char :: rest) = (char :: line) :: lines := by
  obtain ⟨line, lines, split⟩ := List.exists_cons_of_ne_nil (splitLines_ne_nil rest)
  refine ⟨line, lines, split, ?_⟩
  rw [splitLines, split]
  exact plain

/-- The first line ends at the first line feed. -/
theorem head_splitLines {line behind : List Char} (whole : '\n' ∉ line)
    (ended : behind = [] ∨ behind.head? = some '\n') :
    (splitLines (line ++ behind))[0]? = some line := by
  induction line with
  | nil =>
      rcases ended with rfl | feed
      · rfl
      · obtain ⟨rest, rfl⟩ : ∃ rest, behind = '\n' :: rest := by
          cases behind <;> simp_all
        rw [List.nil_append, splitLines_feed]
        rfl
  | cons char line ih =>
      rw [List.mem_cons, not_or] at whole
      obtain ⟨first, others, split, joined⟩ := splitLines_cons (Ne.symm whole.1) (line ++ behind)
      have same := ih whole.2
      rw [split] at same
      rw [List.cons_append, joined]
      simpa using same

/-- What stands before the beginning of a line makes up the lines before it. -/
theorem splitLines_after {before : List Char} (ended : before = [] ∨ before.getLast? = some '\n')
    (rest : List Char) :
    (splitLines (before ++ rest))[before.count '\n']? = (splitLines rest)[0]? := by
  induction before with
  | nil => rfl
  | cons char before ih =>
      have ended : before = [] ∧ char = '\n' ∨ before.getLast? = some '\n' := by
        cases before <;> simp_all
      by_cases feed : char = '\n'
      · subst feed
        rw [List.cons_append, splitLines_feed, List.count_cons_self, List.getElem?_cons_succ]
        exact ih (ended.imp_left And.left)
      · rcases ended with ⟨-, found⟩ | ended
        · exact absurd found feed
        · -- The part before ends with a line feed, so the line that grows is not the one looked at.
          have positive : 0 < before.count '\n' :=
            List.count_pos_iff.mpr (List.mem_of_getLast? ended)
          obtain ⟨first, others, split, joined⟩ := splitLines_cons feed (before ++ rest)
          have same := ih (.inr ended)
          rw [split] at same
          rw [List.cons_append, joined, List.count_cons_of_ne feed, ← same]
          obtain ⟨count, counted⟩ := Nat.exists_eq_succ_of_ne_zero positive.ne'
          rw [counted, List.getElem?_cons_succ, List.getElem?_cons_succ]

/-- The carriage returns at the end of a line are left out, all of them and nothing else. -/
theorem withoutReturns_split (line : List Char) :
    ∃ returns, line = withoutReturns line ++ List.replicate returns '\r' ∧
      (withoutReturns line).getLast? ≠ some '\r' := by
  let isReturn : Char → Bool := (· == '\r')
  refine ⟨(line.rtakeWhile isReturn).length, ?_, ?_⟩
  · have returns : line.rtakeWhile isReturn =
        List.replicate (line.rtakeWhile isReturn).length '\r' :=
      List.eq_replicate_of_mem fun char member => by
        simpa [isReturn] using List.mem_rtakeWhile_imp member
    rw [← returns]
    exact (List.rdropWhile_append_rtakeWhile (p := isReturn) (l := line)).symm
  · intro last
    have nonempty : line.rdropWhile isReturn ≠ [] := by
      intro none
      change (line.rdropWhile isReturn).getLast? = some '\r' at last
      rw [none] at last
      cases last
    have other := List.rdropWhile_last_not isReturn line nonempty
    have same : (line.rdropWhile isReturn).getLast nonempty = '\r' :=
      (List.getLast_eq_iff_getLast?_eq_some nonempty).mpr last
    simp [same, isReturn] at other

/-- A line of a text is shown without the carriage returns at its end. -/
theorem IsLine.shown {text : String} {number : Nat} {line : List Char}
    (isLine : IsLine text.toList number line) :
    shownLine text number = String.ofList (withoutReturns line) := by
  obtain ⟨before, behind, split, whole, begun, ended, rfl⟩ := isLine
  have found : (splitLines text.toList)[before.count '\n']? = some line := by
    rw [split, List.append_assoc, splitLines_after begun]
    exact head_splitLines whole ended
  unfold shownLine shownLines
  simp [found]

/-- The position at an offset lies within its line or just behind it. -/
theorem isLine_inText (text : List Char) (offset : Nat) :
    ∃ line, IsLine text (Position.inText text offset).line line ∧
      (Position.inText text offset).column ≤ line.length + 1 := by
  let isInside : Char → Bool := (· != '\n')
  have before := List.rdropWhile_append_rtakeWhile (p := isInside) (l := text.take offset)
  have behind := List.takeWhile_append_dropWhile (p := isInside) (l := text.drop offset)
  have unbroken : '\n' ∉ (text.take offset).rtakeWhile isInside := fun feed =>
    absurd (List.mem_rtakeWhile_imp feed) (by simp [isInside])
  refine ⟨(text.take offset).rtakeWhile isInside ++ (text.drop offset).takeWhile isInside,
    ⟨(text.take offset).rdropWhile isInside, (text.drop offset).dropWhile isInside,
      ?split, ?whole, ?begun, ?ended, ?number⟩, ?column⟩
  case split =>
    calc text = text.take offset ++ text.drop offset := (List.take_append_drop offset text).symm
      _ = _ := by rw [← List.append_assoc, before, List.append_assoc, behind]
  case whole =>
    rw [List.mem_append, not_or]
    exact ⟨unbroken, fun feed => absurd (List.mem_takeWhile_imp feed) (by simp [isInside])⟩
  case begun =>
    by_cases none : (text.take offset).rdropWhile isInside = []
    · exact .inl none
    · right
      have last := List.rdropWhile_last_not isInside _ none
      rw [List.getLast?_eq_some_getLast none]
      simpa [isInside] using last
  case ended =>
    have first := List.head?_dropWhile_not isInside (text.drop offset)
    cases rest : (text.drop offset).dropWhile isInside with
    | nil => exact .inl rfl
    | cons char rest => simpa [rest, isInside] using first
  case number =>
    have counted := congrArg (List.count '\n') before
    rw [List.count_append, List.count_eq_zero.mpr unbroken] at counted
    change (text.take offset).count '\n' + 1 = _
    rw [← counted, Nat.add_zero]
  case column =>
    change ((text.take offset).rtakeWhile isInside).length + 1 ≤ _
    rw [List.length_append]
    omega

end Text

end Onepass
