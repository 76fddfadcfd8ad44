import Onepass.Proofs.Lexing.Pattern

/-! # Types as they are written

A type is written as a word with a pair of brackets for each dimension, and read by taking the brackets at
the end of the word away again. No bracket may stand in the word itself.
-/

set_option autoImplicit false

namespace Onepass

open Text (IsBareWord)

/-! ## Words and brackets -/

namespace LexemeSort

theorem brackets_succ (count : Nat) : brackets (count + 1) = brackets count ++ ['[', ']'] := by
  induction count with
  | zero => rfl
  | succ count ih => exact congrArg (fun rest => '[' :: ']' :: rest) ih

theorem length_brackets (count : Nat) : (brackets count).length = 2 * count := by
  induction count with
  | zero => rfl
  | succ count ih =>
      rw [brackets, List.length_cons, List.length_cons, ih]
      omega

end LexemeSort

/-- No character of a bare word is a bracket. -/
theorem Text.IsBareWord.unbracketed {word : List Char} (bare : IsBareWord word) :
    ∀ char ∈ word, DeclaredType.isBracket char = false := by
  intro char member
  have part := bare.isWordPart_eq char member
  rw [Bool.eq_false_iff]
  intro bracket
  simp only [DeclaredType.isBracket, Bool.or_eq_true, beq_iff_eq] at bracket
  rcases bracket with rfl | rfl <;> cases part

/-! ## The written form of a type -/

namespace DeclaredType

variable {type : DeclaredType}

/-- The token of the written form of a type. -/
def token (type : DeclaredType) (position : Position) : Token :=
  ⟨Kind.ofWord type.text.toList, some type.text, position⟩

/-- This is the one token of the written form. -/
theorem tokens_text (type : DeclaredType) (position : Position) :
    Lexeme.tokens position ⟨.word, type.text.toList⟩ = [type.token position] := by
  simp [Lexeme.tokens, token]

theorem toList_text (type : DeclaredType) :
    type.text.toList = type.base.toList ++ LexemeSort.brackets type.dimensions := by
  have written (count : Nat) :
      (String.join (List.replicate count "[]")).toList = LexemeSort.brackets count := by
    induction count with
    | zero => rfl
    | succ count ih => rw [List.replicate_succ, String.join_cons, String.toList_append, ih]; rfl
  rw [text, String.toList_append, written]

/-- Reading the written form gives the type back if no bracket stands in its word. -/
theorem ofName_text (plain : ∀ char ∈ type.base.toList, isBracket char = false) :
    ofName type.text = type := by
  have brackets : ∀ char ∈ (LexemeSort.brackets type.dimensions).reverse, isBracket char = true := by
    intro char member
    rcases LexemeSort.mem_brackets (List.mem_reverse.mp member) with rfl | rfl <;> rfl
  have kept : type.base.toList.reverse.dropWhile isBracket = type.base.toList.reverse := by
    cases reversed : type.base.toList.reverse with
    | nil => rfl
    | cons last front =>
        have member : last ∈ type.base.toList := List.mem_reverse.mp (reversed ▸ List.mem_cons_self)
        exact List.dropWhile_cons_of_neg (by simp [plain last member])
  have stripped : (type.text.toList.reverse.dropWhile isBracket).reverse = type.base.toList := by
    rw [toList_text, List.reverse_append, List.dropWhile_append_of_pos brackets, kept,
      List.reverse_reverse]
  simp only [ofName, stripped, String.ofList_toList]
  rw [toList_text, List.length_append, LexemeSort.length_brackets]
  simp

/-- The written form ends with brackets just if the type has dimensions. -/
theorem bracketed_text_iff (bare : IsBareWord type.base.toList) :
    "[]".toList.isSuffixOf type.text.toList = true ↔ 0 < type.dimensions := by
  rw [List.isSuffixOf_iff_suffix, toList_text]
  cases type.dimensions with
  | zero =>
      refine iff_of_false ?_ (Nat.lt_irrefl 0)
      rintro ⟨rest, same⟩
      have member : ']' ∈ type.base.toList := by
        rw [LexemeSort.brackets, List.append_nil] at same
        rw [← same]
        simp
      have plain := bare.unbracketed ']' member
      cases plain
  | succ count =>
      refine iff_of_true ⟨type.base.toList ++ LexemeSort.brackets count, ?_⟩ (Nat.zero_lt_succ count)
      rw [LexemeSort.brackets_succ, List.append_assoc]
      rfl

theorem text_of_flat (flat : type.dimensions = 0) : type.text = type.base := by
  simp [text, flat]

theorem text_ne_empty (bare : IsBareWord type.base.toList) : type.text ≠ "" := by
  intro same
  have empty := congrArg String.toList same
  rw [toList_text] at empty
  generalize type.base.toList = word at bare empty
  cases bare
  cases empty

/-- No other type is written like the one of untyped arrays. -/
theorem text_ne_array (bare : IsBareWord type.base.toList) (other : type.base ≠ "array") :
    type.text ≠ "array" := by
  intro same
  rcases Nat.eq_zero_or_pos type.dimensions with flat | nested
  · exact other ((text_of_flat flat).symm.trans same)
  · have bracketed := (bracketed_text_iff bare).mpr nested
    rw [same] at bracketed
    cases bracketed

end DeclaredType

end Onepass
