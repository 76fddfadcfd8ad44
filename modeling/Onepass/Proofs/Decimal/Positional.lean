import Mathlib.Data.List.TakeWhile
import Onepass.Proofs.Decimal.Value
import Onepass.Value.Operator

/-! # Numbers as text and back

The text of a number spells its digits in positional notation and has no exponent. Read again, it is
the number at an exponent that is not positive: a number without zeros to fill up comes back digit for
digit, with its scale and, but for the zero without a fraction, its sign. Conversion from text accepts it
as long as its leading digit is not too far from the point.
-/

set_option autoImplicit false

namespace Onepass

/-! ## The value of digits -/

namespace Text

theorem toNat_of_basic {char : Char} (digit : char.isDigit = true) :
    48 ≤ char.toNat ∧ char.toNat ≤ 57 := by
  simpa [Char.isDigit, UInt32.le_iff_toNat_le] using digit

theorem digitValue?_of_basic {char : Char} (digit : char.isDigit = true) :
    digitValue? char = some (char.toNat - 48) := by
  have range := toNat_of_basic digit
  have basic : isBasic char = true := by
    simp only [isBasic, decide_eq_true_eq]
    omega
  rw [digitValue?, if_pos basic, if_pos digit]

theorem isDigit_of_basic {char : Char} (digit : char.isDigit = true) : isDigit char = true := by
  rw [isDigit, digitValue?_of_basic digit]
  rfl

theorem digitsValue_concat (digits : List Char) (last : Char) :
    digitsValue (digits ++ [last]) = 10 * digitsValue digits + (digitValue? last).getD 0 := by
  simp [digitsValue]

theorem digitsValue_append (digits behind : List Char) :
    digitsValue (digits ++ behind) = digitsValue digits * 10 ^ behind.length + digitsValue behind := by
  induction behind using List.reverseRecOn with
  | nil => simp [digitsValue]
  | append_singleton behind last ih =>
      rw [← List.append_assoc, digitsValue_concat, digitsValue_concat, ih, List.length_append,
        List.length_singleton, Nat.pow_succ]
      ring

theorem digitsValue_zeros (count : Nat) : digitsValue (List.replicate count '0') = 0 := by
  induction count with
  | zero => rfl
  | succ count ih =>
      rw [List.replicate_succ', digitsValue_concat, ih]
      rfl

theorem isDigit_zeros (count : Nat) : ∀ char ∈ List.replicate count '0', isDigit char = true := by
  intro char member
  rw [List.eq_of_mem_replicate member]
  rfl

theorem digitsValue_toDigits (number : Nat) : digitsValue (Nat.toDigits 10 number) = number := by
  induction number using Nat.strongRecOn with
  | ind number ih =>
      have digit (small : Nat) (lt : small < 10) :
          (digitValue? (Nat.digitChar small)).getD 0 = small := by
        rw [digitValue?_of_basic (by simpa [Nat.isDigit_digitChar] using lt)]
        exact Nat.toNat_digitChar_sub_48_of_lt_ten lt
      rw [Nat.toDigits_eq_if (by decide)]
      split
      case _ small => simpa [digitsValue] using digit number small
      case _ =>
        rw [digitsValue_concat, ih (number / 10) (by omega), digit _ (Nat.mod_lt _ (by decide))]
        omega

end Text

namespace Decimal

open Text (isDigit digitsValue isBlank trim)

/-! ## Reading digits around a point -/

/-- The text spells the coefficient with so many places: digits of any script, the last of them behind a
point. A point may stand after all of them. -/
inductive Spells : Nat → Nat → List Char → Prop
  | whole (digits : List Char) (nonempty : digits ≠ [])
      (digital : ∀ char ∈ digits, isDigit char = true) : Spells (digitsValue digits) 0 digits
  | pointed (digits behind : List Char) (nonempty : digits ≠ [])
      (digital : ∀ char ∈ digits, isDigit char = true)
      (behindDigital : ∀ char ∈ behind, isDigit char = true) :
      Spells (digitsValue (digits ++ behind)) behind.length (digits ++ '.' :: behind)

/-- The digits end before a point, and they end with the text. -/
theorem span_digits {digits : List Char} (digital : ∀ char ∈ digits, isDigit char = true)
    (rest : List Char) (ended : rest.takeWhile isDigit = []) :
    (digits ++ rest).takeWhile isDigit = digits ∧ (digits ++ rest).dropWhile isDigit = rest := by
  have kept : rest.dropWhile isDigit = rest := by
    have whole := List.takeWhile_append_dropWhile (p := isDigit) (l := rest)
    rwa [ended, List.nil_append] at whole
  rw [List.takeWhile_append_of_pos digital, List.dropWhile_append_of_pos digital, ended, kept,
    List.append_nil]
  exact ⟨rfl, rfl⟩

theorem readSign_digits {first : Char} (digit : isDigit first = true) (rest : List Char)
    (negative : Bool) :
    readSign ((if negative then ['-'] else []) ++ first :: rest) = (negative, first :: rest) := by
  cases negative with
  | true => rfl
  | false =>
      rw [if_neg Bool.false_ne_true, List.nil_append]
      unfold readSign
      -- Neither sign is a digit.
      split
      case _ same => cases (List.cons.inj same).1 ▸ digit
      case _ same => cases (List.cons.inj same).1 ▸ digit
      case _ => rfl

/-- What is written is read as such, whatever its sign. -/
theorem Spells.parse?_eq {coefficient places : Nat} {text : List Char}
    (spells : Spells coefficient places text) (negative : Bool) :
    parse? ((if negative then ['-'] else []) ++ text) = some ⟨negative, coefficient, -places⟩ := by
  cases spells with
  | whole digits nonempty digital =>
      obtain ⟨first, rest, rfl⟩ := List.exists_cons_of_ne_nil nonempty
      obtain ⟨taken, dropped⟩ := span_digits digital [] rfl
      rw [List.append_nil] at taken dropped
      unfold parse?
      rw [readSign_digits (digital first List.mem_cons_self)]
      simp [taken, dropped, readFraction, readExponent?]
  | pointed digits behind nonempty digital behindDigital =>
      obtain ⟨first, rest, rfl⟩ := List.exists_cons_of_ne_nil nonempty
      obtain ⟨taken, dropped⟩ := span_digits digital ('.' :: behind) rfl
      obtain ⟨takenBehind, droppedBehind⟩ := span_digits behindDigital [] rfl
      rw [List.append_nil] at takenBehind droppedBehind
      unfold parse?
      rw [List.cons_append] at taken dropped ⊢
      rw [readSign_digits (digital first List.mem_cons_self)]
      simp [taken, dropped, readFraction, takenBehind, droppedBehind, readExponent?]

/-! ## Writing digits around a point -/

/-- With enough zeros in front, the digits are parted by the point. -/
theorem insertPoint_eq (digits whole : List Char) {behind : List Char} (nonempty : behind ≠ [])
    (padded : List.replicate (behind.length + 1 - digits.length) '0' ++ digits = whole ++ behind) :
    insertPoint digits behind.length = whole ++ '.' :: behind := by
  have places : (behind.length == 0) = false := by simpa using nonempty
  unfold insertPoint
  rw [if_neg (by simp [places]), padded]
  simp

theorem digits_ne_nil (number : Decimal) : number.digits ≠ [] :=
  Nat.toDigits_ne_nil

theorem digits_basic (number : Decimal) : ∀ char ∈ number.digits, char.isDigit = true :=
  fun _ => Nat.isDigit_of_mem_toDigits (by decide) (by decide)

theorem isDigit_digits (number : Decimal) : ∀ char ∈ number.digits, isDigit char = true :=
  fun char member => Text.isDigit_of_basic (number.digits_basic char member)

theorem digitsValue_digits (number : Decimal) : digitsValue number.digits = number.coefficient :=
  Text.digitsValue_toDigits number.coefficient

/-- The number without an exponent to fill up with zeros, and without the sign of a zero that has no
fraction: what its text is read as. -/
def positional (number : Decimal) : Decimal where
  negative := number.negative && !(number.isZero && 0 ≤ number.exponent)
  coefficient := number.coefficientAt (min number.exponent 0)
  exponent := min number.exponent 0

theorem positional_of_fraction {number : Decimal} (le : number.exponent ≤ 0) :
    number.positional =
      ⟨number.negative && !(number.isZero && 0 ≤ number.exponent), number.coefficient,
        number.exponent⟩ := by
  have same : number.coefficientAt number.exponent = number.coefficient := by
    rw [coefficientAt, shift_eq, Int.sub_self, Int.toNat_zero, Nat.pow_zero, Nat.mul_one]
  rw [positional, min_eq_left le, same]

theorem positional_negativeZero : positional ⟨true, 0, 0⟩ = ⟨false, 0, 0⟩ :=
  rfl

theorem positional_eq_self {number : Decimal} (le : number.exponent ≤ 0)
    (other : number ≠ ⟨true, 0, 0⟩) : number.positional = number := by
  rw [positional_of_fraction le]
  obtain ⟨negative, coefficient, exponent⟩ := number
  cases negative with
  | false => rfl
  | true =>
      have unfilled : (coefficient == 0 && decide (0 ≤ exponent)) = false := by
        rw [Bool.eq_false_iff]
        intro both
        obtain ⟨none, exact⟩ := Bool.and_eq_true_iff.1 both
        obtain rfl := beq_iff_eq.1 none
        obtain rfl : exponent = 0 := le_antisymm le (of_decide_eq_true exact)
        exact other rfl
      simp [isZero, unfilled]

/-- The padded digits are parted so that as many as there are places stand behind the point. -/
theorem insertPoint_spells (number : Decimal) {places : Nat} (some : places ≠ 0) :
    Spells number.coefficient places (insertPoint number.digits places) := by
  generalize filled : List.replicate (places + 1 - number.digits.length) '0' ++ number.digits = padded
  have length : places + 1 ≤ padded.length := by
    rw [← filled, List.length_append, List.length_replicate]
    omega
  have digital : ∀ char ∈ padded, isDigit char = true := by
    rw [← filled, List.forall_mem_append]
    exact ⟨Text.isDigit_zeros _, number.isDigit_digits⟩
  have value : digitsValue padded = number.coefficient := by
    rw [← filled, Text.digitsValue_append, Text.digitsValue_zeros, digitsValue_digits]
    omega
  obtain ⟨whole, behind, parted, places_eq⟩ :
      ∃ whole behind, whole ++ behind = padded ∧ behind.length = places :=
    ⟨_, _, List.take_append_drop (padded.length - places) padded, by rw [List.length_drop]; omega⟩
  rw [← parted, List.forall_mem_append] at digital
  rw [← parted, List.length_append] at length
  subst places_eq
  have pointed := insertPoint_eq number.digits whole (List.ne_nil_of_length_pos (by omega))
    (filled.trans parted.symm)
  rw [pointed, ← value, ← parted]
  exact .pointed whole behind (List.ne_nil_of_length_pos (by omega)) digital.1 digital.2

/-- The absolute value is written with every place that the exponent asks for. -/
theorem magnitudeText_spells (number : Decimal) :
    Spells number.positional.coefficient (-number.positional.exponent).toNat number.magnitudeText := by
  unfold magnitudeText
  split
  case _ negative =>
    have places : (-number.exponent).toNat ≠ 0 := by omega
    rw [positional_of_fraction (Int.le_of_lt negative)]
    exact number.insertPoint_spells places
  case _ nonnegative =>
    have exponent : min number.exponent 0 = 0 := min_eq_right (Int.not_lt.1 nonnegative)
    have filled : number.positional.coefficient = number.coefficient * 10 ^ number.exponent.toNat := by
      rw [positional, exponent, coefficientAt, shift_eq, Int.sub_zero]
    have places : (-number.positional.exponent).toNat = 0 := by
      rw [positional, exponent]
      rfl
    rw [filled, places]
    split
    case _ zero =>
      have none : number.coefficient = 0 := by simpa [isZero] using zero
      have spells : Spells _ _ _ := .whole number.digits number.digits_ne_nil number.isDigit_digits
      rw [digitsValue_digits, none] at spells
      rwa [none, Nat.zero_mul]
    case _ =>
      have spells : Spells _ _ _ := .whole (number.digits ++ List.replicate number.exponent.toNat '0')
        (List.append_ne_nil_of_left_ne_nil number.digits_ne_nil _)
        (List.forall_mem_append.2 ⟨number.isDigit_digits, Text.isDigit_zeros _⟩)
      rwa [Text.digitsValue_append, digitsValue_digits, Text.digitsValue_zeros, Nat.add_zero,
        List.length_replicate] at spells

theorem toList_text (number : Decimal) :
    number.text.toList =
      (if number.positional.negative then ['-'] else []) ++ number.magnitudeText := by
  unfold text positional signText
  cases number.isZero && decide (0 ≤ number.exponent) <;> simp

theorem parse?_text (number : Decimal) : parse? number.text.toList = some number.positional := by
  have exponent : -((-number.positional.exponent).toNat : Int) = number.positional.exponent := by
    have le : number.positional.exponent ≤ 0 := min_le_right number.exponent 0
    omega
  rw [toList_text, number.magnitudeText_spells.parse?_eq, exponent]

theorem mem_insertPoint {digits : List Char} {places : Nat} {char : Char}
    (member : char ∈ insertPoint digits places) : char = '.' ∨ char = '0' ∨ char ∈ digits := by
  unfold insertPoint at member
  split at member
  case _ => exact .inr (.inr member)
  case _ =>
    have padded {char : Char}
        (inside : char ∈ List.replicate (places + 1 - digits.length) '0' ++ digits) :
        char = '0' ∨ char ∈ digits :=
      (List.mem_append.1 inside).imp_left List.eq_of_mem_replicate
    rcases List.mem_append.1 member with whole | behind
    · exact .inr (padded (List.mem_of_mem_take whole))
    · exact (List.mem_cons.1 behind).imp_right fun inside => padded (List.mem_of_mem_drop inside)

/-- Nothing but the sign, the point and digits of the basic block stands in the text of a number. -/
theorem mem_text {number : Decimal} {char : Char} (member : char ∈ number.text.toList) :
    char = '-' ∨ char = '.' ∨ char.isDigit = true := by
  rw [toList_text, List.mem_append] at member
  rcases member with sign | magnitude
  · left
    split at sign
    · exact List.mem_singleton.1 sign
    · cases sign
  · right
    unfold magnitudeText at magnitude
    split at magnitude
    case _ =>
      rcases mem_insertPoint magnitude with point | zero | digit
      · exact .inl point
      · exact .inr (zero ▸ rfl)
      · exact .inr (number.digits_basic char digit)
    case _ =>
      split at magnitude
      case _ => exact .inr (number.digits_basic char magnitude)
      case _ =>
        rcases List.mem_append.1 magnitude with digit | zero
        · exact .inr (number.digits_basic char digit)
        · exact .inr (List.eq_of_mem_replicate zero ▸ rfl)

/-! ## Converting the text back -/

theorem not_blank_of_mem_text {number : Decimal} {char : Char} (member : char ∈ number.text.toList) :
    isBlank char = false ∧ (char != '_') = true := by
  rcases mem_text member with rfl | rfl | digit
  · exact ⟨rfl, rfl⟩
  · exact ⟨rfl, rfl⟩
  · have range := Text.toNat_of_basic digit
    refine ⟨?_, ?_⟩
    · rw [Bool.eq_false_iff]
      intro blank
      obtain ⟨bounds, listed, lower, upper⟩ := Text.covers_iff.1 blank
      have apart : ∀ bounds ∈ Text.blankRanges, bounds.2 < 48 ∨ 57 < bounds.1 := by decide
      have := apart bounds listed
      omega
    · rw [bne_iff_ne]
      rintro rfl
      exact absurd range (by decide)

/-- Nothing is ignored when the text of a number is converted. -/
theorem ofText?_text (number : Decimal) :
    ofText? number.text =
      if number.positional.adjusted.natAbs ≤ conversionLimit then some number.positional else none := by
  have trimmed : trim number.text.toList = number.text.toList := by
    have solid (text : List Char) (inner : ∀ char ∈ text, isBlank char = false) :
        text.dropWhile isBlank = text := by
      cases text with
      | nil => rfl
      | cons first rest => exact List.dropWhile_cons_of_neg (by simp [inner first List.mem_cons_self])
    have inner : ∀ char ∈ number.text.toList, isBlank char = false :=
      fun char member => (not_blank_of_mem_text member).1
    rw [trim, Text.trimRight, solid _ inner, solid _ (by simpa using inner), List.reverse_reverse]
  have complete : number.text.toList.filter (· != '_') = number.text.toList :=
    List.filter_eq_self.2 fun char member => (not_blank_of_mem_text member).2
  rw [ofText?, trimmed, complete, parse?_text, Option.filter_some]
  simp

theorem value_positional (number : Decimal) : number.positional.value = number.value := by
  by_cases zero : number.isZero = true
  · have none : number.positional.coefficient = 0 := by
      rw [isZero, beq_iff_eq] at zero
      rw [positional, coefficientAt, zero]
      rfl
    rw [value_eq_zero.2 none, isZero_iff.1 zero]
  · have sign : number.positional.negative = number.negative := by simp [positional, zero]
    rw [value_eq_signedAt number (min_le_left number.exponent 0), value, signedAt, sign]
    split <;> simp [positional]

/-- The place of the leading digit depends on the value only. -/
theorem adjusted_congr {first second : Decimal} (ne : first.value ≠ 0)
    (same : first.value = second.value) : first.adjusted = second.adjusted := by
  have le {left right : Decimal} (ne : left.value ≠ 0) (same : left.value = right.value) :
      left.adjusted ≤ right.adjusted := by
    rw [adjusted_le_iff ne, same, ← adjusted_le_iff (same ▸ ne)]
  exact le_antisymm (le ne same) (le (same ▸ ne) same.symm)

/-- The number is near enough to the point for its text to be converted. -/
def NearPoint (number : Decimal) : Prop :=
  if number.isZero then -6144 ≤ number.exponent else number.adjusted.natAbs ≤ 6144

theorem nearPoint_iff (number : Decimal) :
    number.NearPoint ↔ number.positional.adjusted.natAbs ≤ conversionLimit := by
  unfold NearPoint
  split
  case _ zero =>
    have none : number.positional.coefficient = 0 :=
      value_eq_zero.1 (number.value_positional.trans (isZero_iff.1 zero))
    rw [adjusted, none, digitCount_zero]
    change _ ↔ (min number.exponent 0 + (1 : Nat) - 1).natAbs ≤ 6144
    omega
  case _ ne =>
    rw [Bool.not_eq_true, isZero_eq_false_iff] at ne
    rw [adjusted_congr ne number.value_positional.symm]
    rfl

end Decimal

namespace Heap

/-- Converts a number to a text and the text to a number again. -/
def throughText (heap : Heap) (number : Decimal) : Except Fault Value := do
  let text ← heap.convert (.number number) "string"
  heap.convert text "number"

theorem throughText_eq (heap : Heap) (number : Decimal) :
    heap.throughText number = heap.convertText (.string number.text) number.text := by
  have printed : heap.convert (.number number) "string" = .ok (.string number.text) := by
    simp [convert, textOf, text?, textWithin, Except.map, ValueStyle.plain]
  have read : heap.convert (.string number.text) "number" =
      heap.convertText (.string number.text) number.text := by
    simp [convert, toNumber]
  unfold throughText
  simp only [printed, bind, Except.bind, read]

theorem throughText_of_near (heap : Heap) {number : Decimal} (near : number.NearPoint) :
    heap.throughText number = .ok (.number number.positional) := by
  rw [throughText_eq, convertText, Decimal.ofText?_text, if_pos (number.nearPoint_iff.1 near)]

theorem throughText_of_far (heap : Heap) {number : Decimal} (far : ¬ number.NearPoint) :
    heap.throughText number =
      .error (.cause (.notConvertible .string ("\"" ++ number.text ++ "\"") "number")) := by
  have shown : heap.textOf .quoting (.string number.text) = .ok ("\"" ++ number.text ++ "\"") := by
    simp [textOf, text?, textWithin, ValueStyle.quoting]
  rw [throughText_eq, convertText, Decimal.ofText?_text, if_neg (mt number.nearPoint_iff.2 far)]
  simp only [notConvertible, shown, bind, Except.bind, Value.tag]

/-- Number to text and back. The text of a number has no exponent, only digits with a point and a sign. It
converts to a number again exactly if the leading digit is at most 6144 places away from the point, where
a zero counts by its exponent; otherwise the conversion is refused for the value. What comes back is equal
to the number, and is the number itself if its exponent is not positive, but for the negative zero without
a fraction, which comes back positive. -/
theorem number_through_text (heap : Heap) (number : Decimal) :
    (∀ char ∈ number.text.toList, char = '-' ∨ char = '.' ∨ char.isDigit = true) ∧
      (number.NearPoint → ∃ restored, heap.throughText number = .ok (.number restored) ∧
        restored.value = number.value ∧
        (number.exponent ≤ 0 → restored = if number = ⟨true, 0, 0⟩ then ⟨false, 0, 0⟩ else number)) ∧
      (¬ number.NearPoint → ∃ cause, heap.throughText number = .error (.cause cause) ∧
        cause.category = .value) := by
  refine ⟨fun char => Decimal.mem_text, fun near => ?_, fun far => ?_⟩
  · refine ⟨_, heap.throughText_of_near near, number.value_positional, fun le => ?_⟩
    split
    case _ same => rw [same, Decimal.positional_negativeZero]
    case _ other => exact Decimal.positional_eq_self le other
  · exact ⟨_, heap.throughText_of_far far, rfl⟩

/-- Minus `1.20` at the lowest place that converts back, and the number just beyond the highest one. -/
theorem number_through_text_at_limit :
    empty.throughText ⟨true, 120, -6146⟩ = .ok (.number ⟨true, 120, -6146⟩) ∧
      ∃ cause, empty.throughText ⟨false, 1, 6145⟩ = .error (.cause cause) ∧
        cause.category = .value := by
  have near : Decimal.NearPoint ⟨true, 120, -6146⟩ := by unfold Decimal.NearPoint; decide +kernel
  have far : ¬ Decimal.NearPoint ⟨false, 1, 6145⟩ := by unfold Decimal.NearPoint; decide +kernel
  obtain ⟨restored, given, -, same⟩ := (number_through_text empty ⟨true, 120, -6146⟩).2.1 near
  refine ⟨?_, (number_through_text empty ⟨false, 1, 6145⟩).2.2 far⟩
  rw [given, same (by decide), if_neg (by decide)]

end Heap

end Onepass
