import Onepass.Text.Colour

/-! # What is left of colour codes

A single pass drops every colour code that stands in a text, and nothing else. Codes never overlap, but
dropping one joins the text on both sides of it: what is left has a colour code exactly if codes stood
inside of what would be a code without them. A second pass changes something in these texts only.
-/

set_option autoImplicit false

namespace Onepass.Text

variable {text rest tail code kept : List Char} {char : Char}

/-! ## Codes at the beginning of a text -/

/-- The characters of a colour code. -/
def IsColourCode (code : List Char) : Prop :=
  ∃ parameters : List Char, (∀ char ∈ parameters, isColourParameter char = true) ∧
    code = escape :: '[' :: (parameters ++ ['m'])

/-- The letter that ends a code tells where its parameters end. -/
theorem dropWhile_parameters {parameters : List Char}
    (all : ∀ char ∈ parameters, isColourParameter char = true)
    (stop : isColourParameter char = false) :
    (parameters ++ char :: rest).dropWhile isColourParameter = char :: rest := by
  rw [List.dropWhile_append_of_pos all, List.dropWhile_cons_of_neg (by simp [stop])]

theorem afterColourCode?_eq_some_iff :
    afterColourCode? text = some tail ↔ ∃ code, IsColourCode code ∧ text = code ++ tail := by
  constructor
  · intro found
    unfold afterColourCode? at found
    split at found
    case _ behind =>
      split at found
      case _ others dropped =>
        obtain rfl := Option.some.inj found
        refine ⟨_, ⟨behind.takeWhile isColourParameter, fun char member => ?_, rfl⟩, ?_⟩
        · exact List.all_eq_true.mp List.all_takeWhile char member
        · have whole := List.takeWhile_append_dropWhile (p := isColourParameter) (l := behind)
          rw [dropped] at whole
          simp [escape, whole]
      case _ => cases found
    case _ => cases found
  · rintro ⟨code, ⟨parameters, all, rfl⟩, rfl⟩
    have dropped : (parameters ++ 'm' :: tail).dropWhile isColourParameter = 'm' :: tail :=
      dropWhile_parameters all (by decide)
    simp [escape, afterColourCode?, dropped]

/-- Only the escape character begins a code. -/
theorem afterColourCode?_of_ne (other : char ≠ escape) : afterColourCode? (char :: rest) = none := by
  rw [Option.eq_none_iff_forall_ne_some]
  intro tail found
  obtain ⟨code, ⟨parameters, -, rfl⟩, same⟩ := afterColourCode?_eq_some_iff.mp found
  exact other (List.cons.inj same).1

theorem withoutColourChars_code (isCode : IsColourCode code) (rest : List Char) :
    withoutColourChars (code ++ rest) = withoutColourChars rest :=
  withoutColourChars_of_code (afterColourCode?_eq_some_iff.mpr ⟨code, isCode, rfl⟩)

/-- Only the escape character can be dropped first. -/
theorem withoutColourChars_plain (other : char ≠ escape) (rest : List Char) :
    withoutColourChars (char :: rest) = char :: withoutColourChars rest :=
  withoutColourChars_cons (afterColourCode?_of_ne other)

/-! ## Texts cut where no code reaches across -/

/-- The character can stand in a colour code at the beginning only. -/
def IsBoundary (char : Char) : Prop :=
  char ≠ '[' ∧ isColourParameter char = false ∧ char ≠ 'm'

theorem isBoundary_escape : IsBoundary escape :=
  ⟨by decide, by decide, by decide⟩

theorem afterColourCode?_append (boundary : IsBoundary char) (nonempty : text ≠ []) :
    afterColourCode? (text ++ char :: rest) = (afterColourCode? text).map (· ++ char :: rest) := by
  obtain ⟨noBracket, noParameter, noEnd⟩ := boundary
  by_cases coded : ∃ parameters, text = '\x1b' :: '[' :: parameters
  · obtain ⟨parameters, rfl⟩ := coded
    have dropped : (parameters ++ char :: rest).dropWhile isColourParameter =
        parameters.dropWhile isColourParameter ++ char :: rest := by
      rw [List.dropWhile_append, List.dropWhile_cons_of_neg (by simp [noParameter])]
      split
      case _ empty => rw [List.isEmpty_iff.mp empty, List.nil_append]
      case _ => rfl
    simp only [List.cons_append, afterColourCode?, dropped]
    cases parameters.dropWhile isColourParameter with
    | nil => simp [noEnd]
    | cons last tail =>
        by_cases ended : last = 'm'
        · subst ended
          rfl
        · simp [ended]
  · have plain : ∀ parameters, text = '\x1b' :: '[' :: parameters → False :=
      fun parameters same => coded ⟨parameters, same⟩
    rw [afterColourCode?.eq_2 text plain, afterColourCode?.eq_2]
    · rfl
    · -- A code at the beginning would have to reach over the character.
      intro parameters same
      match text with
      | [] => exact nonempty rfl
      | [_] => exact noBracket (List.cons.inj (List.cons.inj same).2).1
      | first :: second :: others =>
          obtain ⟨rfl, rest⟩ := List.cons.inj same
          obtain ⟨rfl, -⟩ := List.cons.inj rest
          exact plain others rfl

/-- Codes are dropped before the character and from it on separately. -/
theorem withoutColourChars_append (boundary : IsBoundary char) (text rest : List Char) :
    withoutColourChars (text ++ char :: rest) =
      withoutColourChars text ++ withoutColourChars (char :: rest) := by
  fun_induction withoutColourChars text with
  | case1 text tail found ih =>
      have nonempty : text ≠ [] := by
        rintro rfl
        cases found
      rw [← ih]
      apply withoutColourChars_of_code
      rw [afterColourCode?_append boundary nonempty, found]
      rfl
  | case2 found => rfl
  | case3 first others found ih =>
      rw [List.cons_append, List.cons_append, ← ih]
      apply withoutColourChars_cons
      rw [← List.cons_append, afterColourCode?_append boundary (List.cons_ne_nil _ _), found]
      rfl

/-! ## Texts with codes put in -/

/-- The text is what is kept with colour codes put in, before, between or behind its characters. -/
inductive Interspersed : (text kept : List Char) → Prop
  | nil : Interspersed [] []
  | code {code text kept : List Char} (isCode : IsColourCode code) (others : Interspersed text kept) :
      Interspersed (code ++ text) kept
  | char {char : Char} {text kept : List Char} (others : Interspersed text kept) :
      Interspersed (char :: text) (char :: kept)

theorem Interspersed.append {more further : List Char} (first : Interspersed text kept)
    (second : Interspersed more further) : Interspersed (text ++ more) (kept ++ further) := by
  induction first with
  | nil => exact second
  | code isCode _ ih =>
      rw [List.append_assoc]
      exact .code isCode ih
  | char _ ih => exact .char ih

theorem Interspersed.length_le (interspersed : Interspersed text kept) : kept.length ≤ text.length := by
  induction interspersed with
  | nil => exact Nat.le_refl 0
  | code _ _ ih =>
      rw [List.length_append]
      omega
  | char _ ih => exact Nat.succ_le_succ ih

/-- Where no escape character is kept, all codes that were put in are found. -/
theorem Interspersed.withoutColourChars_eq (interspersed : Interspersed text kept)
    (unescaped : escape ∉ kept) (rest : List Char) :
    withoutColourChars (text ++ rest) = kept ++ withoutColourChars rest := by
  induction interspersed with
  | nil => rfl
  | code isCode _ ih => rw [List.append_assoc, withoutColourChars_code isCode, ih unescaped]
  | char _ ih =>
      rw [List.mem_cons, not_or] at unescaped
      rw [List.cons_append, withoutColourChars_plain (Ne.symm unescaped.1), ih unescaped.2,
        List.cons_append]

/-- The first code that was put in begins with an escape character. -/
theorem Interspersed.first_code (interspersed : Interspersed text kept) (different : text ≠ kept) :
    ∃ front back behind, kept = front ++ behind ∧ text = front ++ escape :: '[' :: back := by
  induction interspersed with
  | nil => exact absurd rfl different
  | code isCode _ =>
      obtain ⟨parameters, -, rfl⟩ := isCode
      exact ⟨[], _, _, rfl, rfl⟩
  | @char char text kept _ ih =>
      obtain ⟨front, back, behind, rfl, rfl⟩ := ih fun same => different (by rw [same])
      exact ⟨char :: front, back, behind, rfl, rfl⟩

/-! ## What a pass keeps -/

/-- What the first of the kept characters stand for in the text, and what the others. -/
theorem exists_interspersed {front back : List Char} (kept : withoutColourChars text = front ++ back) :
    ∃ before after, text = before ++ after ∧ Interspersed before front ∧
      withoutColourChars after = back := by
  induction text using withoutColourChars.induct generalizing front with
  | case1 text tail found ih =>
      obtain ⟨code, isCode, rfl⟩ := afterColourCode?_eq_some_iff.mp found
      rw [withoutColourChars_code isCode] at kept
      obtain ⟨before, after, rfl, interspersed, ends⟩ := ih kept
      exact ⟨code ++ before, after, (List.append_assoc ..).symm, .code isCode interspersed, ends⟩
  | case2 =>
      rw [withoutColourChars_nil] at kept
      obtain ⟨rfl, rfl⟩ := List.append_eq_nil_iff.mp kept.symm
      exact ⟨[], [], rfl, .nil, withoutColourChars_nil⟩
  | case3 char others none ih =>
      cases front with
      | nil => exact ⟨[], char :: others, rfl, .nil, kept⟩
      | cons first front =>
          rw [withoutColourChars_cons none, List.cons_append] at kept
          obtain ⟨rfl, others⟩ := List.cons.inj kept
          obtain ⟨before, after, rfl, interspersed, ends⟩ := ih others
          exact ⟨char :: before, after, rfl, .char interspersed, ends⟩

/-- The first kept character stands behind codes, and no code begins with it. -/
theorem exists_first_kept (kept : withoutColourChars text = char :: rest) :
    ∃ codes after, text = codes ++ char :: after ∧ Interspersed codes [] ∧
      afterColourCode? (char :: after) = none ∧ withoutColourChars after = rest := by
  induction text using withoutColourChars.induct with
  | case1 text tail found ih =>
      obtain ⟨code, isCode, rfl⟩ := afterColourCode?_eq_some_iff.mp found
      rw [withoutColourChars_code isCode] at kept
      obtain ⟨codes, after, rfl, interspersed, plain, ends⟩ := ih kept
      exact ⟨code ++ codes, after, (List.append_assoc ..).symm, .code isCode interspersed, plain, ends⟩
  | case2 =>
      rw [withoutColourChars_nil] at kept
      cases kept
  | case3 first others none _ =>
      rw [withoutColourChars_cons none] at kept
      obtain ⟨rfl, ends⟩ := List.cons.inj kept
      exact ⟨[], others, rfl, .nil, none, ends⟩

/-- Nothing but codes is dropped. -/
theorem interspersed_withoutColourChars (text : List Char) :
    Interspersed text (withoutColourChars text) := by
  induction text using withoutColourChars.induct with
  | case1 text tail found ih =>
      obtain ⟨code, isCode, rfl⟩ := afterColourCode?_eq_some_iff.mp found
      rw [withoutColourChars_code isCode]
      exact .code isCode ih
  | case2 =>
      rw [withoutColourChars_nil]
      exact .nil
  | case3 char others none ih =>
      rw [withoutColourChars_cons none]
      exact .char ih

/-! ## Codes that are left -/

/-- Somewhere in the text stands a colour code. -/
def HasColour (text : List Char) : Prop :=
  ∃ code, IsColourCode code ∧ code <:+: text

/-- Somewhere in the text other codes stand inside of what is a code without them. -/
def HasBrokenColour (text : List Char) : Prop :=
  ∃ before inside parameters after, text = before ++ escape :: (inside ++ 'm' :: after) ∧
    (∀ char ∈ parameters, isColourParameter char = true) ∧
    Interspersed inside ('[' :: parameters) ∧ inside ≠ '[' :: parameters

theorem escape_not_mem_inside {parameters : List Char}
    (all : ∀ char ∈ parameters, isColourParameter char = true) : escape ∉ '[' :: parameters := by
  rw [List.mem_cons, not_or]
  refine ⟨by decide, fun member => ?_⟩
  have parameter := all escape member
  cases parameter

/-- What is a code without other codes inside of it is no code with them. -/
theorem afterColourCode?_of_broken {inside parameters after : List Char}
    (all : ∀ char ∈ parameters, isColourParameter char = true)
    (interspersed : Interspersed inside ('[' :: parameters)) (broken : inside ≠ '[' :: parameters) :
    afterColourCode? (escape :: (inside ++ 'm' :: after)) = none := by
  obtain ⟨front, back, behind, split, rfl⟩ := interspersed.first_code broken
  cases front with
  | nil => simp [escape, afterColourCode?]
  | cons bracket front =>
      obtain ⟨rfl, rfl⟩ := List.cons.inj split
      have inner : ∀ char ∈ front, isColourParameter char = true := fun char member =>
        all char (List.mem_append_left _ member)
      have stop : isColourParameter '\x1b' = false := by decide
      simp [escape, afterColourCode?, dropWhile_parameters inner stop]

theorem hasColour_of_broken (broken : HasBrokenColour text) :
    HasColour (withoutColourChars text) := by
  obtain ⟨before, inside, parameters, after, rfl, all, interspersed, different⟩ := broken
  have dropped : withoutColourChars (before ++ escape :: (inside ++ 'm' :: after)) =
      withoutColourChars before ++
        (escape :: '[' :: (parameters ++ ['m']) ++ withoutColourChars after) := by
    rw [withoutColourChars_append isBoundary_escape,
      withoutColourChars_cons (afterColourCode?_of_broken all interspersed different),
      interspersed.withoutColourChars_eq (escape_not_mem_inside all),
      withoutColourChars_plain (by decide)]
    simp
  exact ⟨_, ⟨parameters, all, rfl⟩, withoutColourChars before, withoutColourChars after, by
    rw [dropped, List.append_assoc]⟩

theorem broken_of_hasColour (coloured : HasColour (withoutColourChars text)) :
    HasBrokenColour text := by
  obtain ⟨_, ⟨parameters, all, rfl⟩, left, right, same⟩ := coloured
  rw [List.append_assoc] at same
  obtain ⟨before, behind, rfl, -, kept⟩ := exists_interspersed same.symm
  obtain ⟨codes, afterEscape, rfl, -, plain, kept⟩ := exists_first_kept kept
  have split : withoutColourChars afterEscape = ('[' :: parameters) ++ 'm' :: right := by
    simpa using kept
  obtain ⟨inside, afterInside, rfl, interspersed, kept⟩ := exists_interspersed split
  obtain ⟨others, after, rfl, dropped, -, -⟩ := exists_first_kept kept
  refine ⟨before ++ codes, inside ++ others, parameters, after, by simp, all, ?_, fun whole => ?_⟩
  · simpa using interspersed.append dropped
  · -- Without other codes inside of it, the code would have been dropped.
    rw [← List.append_assoc, whole] at plain
    have found := afterColourCode?_eq_some_iff.mpr
      ⟨escape :: '[' :: (parameters ++ ['m']), ⟨parameters, all, rfl⟩,
        show escape :: ('[' :: parameters ++ 'm' :: after) = _ ++ after by simp⟩
    rw [plain] at found
    cases found

theorem withoutColourChars_of_clean (clean : ¬ HasColour text) : withoutColourChars text = text := by
  induction text with
  | nil => exact withoutColourChars_nil
  | cons char rest ih =>
      have none : afterColourCode? (char :: rest) = none := by
        rw [Option.eq_none_iff_forall_ne_some]
        intro tail found
        obtain ⟨code, isCode, same⟩ := afterColourCode?_eq_some_iff.mp found
        exact clean ⟨code, isCode, [], tail, same.symm⟩
      rw [withoutColourChars_cons none]
      refine congrArg _ (ih fun ⟨code, isCode, left, right, same⟩ => clean ?_)
      exact ⟨code, isCode, char :: left, right, by rw [← same]; rfl⟩

/-- A pass over a text changes it exactly if the text has a colour code. -/
theorem withoutColourChars_eq_self_iff : withoutColourChars text = text ↔ ¬ HasColour text := by
  refine ⟨?_, withoutColourChars_of_clean⟩
  rintro same ⟨code, isCode, left, right, rfl⟩
  obtain ⟨parameters, -, rfl⟩ := id isCode
  have dropped : withoutColourChars (left ++ (escape :: '[' :: (parameters ++ ['m'])) ++ right) =
      withoutColourChars left ++ withoutColourChars right := by
    rw [List.append_assoc, List.cons_append, withoutColourChars_append isBoundary_escape,
      ← List.cons_append, withoutColourChars_code isCode]
  have fewer := (interspersed_withoutColourChars left).length_le
  have others := (interspersed_withoutColourChars right).length_le
  have lengths := congrArg List.length (dropped.symm.trans same)
  simp only [List.length_append, List.length_cons] at lengths
  omega

/-- Dropping colour codes drops nothing but codes. What is left has a colour code exactly if, in the text,
other codes stood inside of what is a code without them; and these are the texts in which a second pass
drops more than the first. -/
theorem colour_left_iff (text : String) :
    Interspersed text.toList (withoutColour text).toList ∧
    (HasColour (withoutColour text).toList ↔ HasBrokenColour text.toList) ∧
    (withoutColour (withoutColour text) = withoutColour text ↔
      ¬ HasColour (withoutColour text).toList) := by
  have chars : (withoutColour text).toList = withoutColourChars text.toList := String.toList_ofList
  rw [chars]
  refine ⟨interspersed_withoutColourChars _, ⟨broken_of_hasColour, hasColour_of_broken⟩, ?_⟩
  rw [← withoutColourChars_eq_self_iff, withoutColour, chars, withoutColour, String.ofList_inj]

/-- A code inside of another one is dropped, and what stood around it becomes a code. -/
theorem code_left_around_code :
    withoutColour "\x1b[\x1b[0m0m" = "\x1b[0m" ∧
    HasColour (withoutColour "\x1b[\x1b[0m0m").toList ∧
    withoutColour (withoutColour "\x1b[\x1b[0m0m") ≠ withoutColour "\x1b[\x1b[0m0m" := by
  have once : withoutColour "\x1b[\x1b[0m0m" = "\x1b[0m" := by decide +kernel
  have twice : withoutColour "\x1b[0m" = "" := by decide +kernel
  rw [once, twice]
  exact ⟨rfl, ⟨_, ⟨['0'], List.all_eq_true.mp (by decide), rfl⟩, [], [], by decide⟩, by decide⟩

end Onepass.Text
