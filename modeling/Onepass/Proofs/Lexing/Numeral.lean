import Onepass.Execution.Evaluator
import Onepass.Proofs.Decimal.Positional
import Onepass.Proofs.Lexing.Recognition
import Onepass.Proofs.Outcome

/-! # Numbers print as they are written

A number in a program is digits of any script, and possibly a point with digits behind it. It is one
token, also where the two points of a range follow it, and denotes a number whose text is what was
written, in digits of the basic block and without zeros in front that mean nothing. No digit behind the
point is lost, however many there are.
-/

set_option autoImplicit false

namespace Onepass

/-! ## Zeros in front -/

namespace Text

/-- The digit of the basic block with the same value. -/
def basicDigit (char : Char) : Char :=
  Nat.digitChar ((digitValue? char).getD 0)

/-- The digits without the zeros in front. Of zeros alone one is left. -/
def withoutLeadingZeros (digits : List Char) : List Char :=
  match digits.dropWhile (· == '0') with
  | [] => ['0']
  | rest => rest

theorem withoutLeadingZeros_of_zeros {digits : List Char} (zeros : digits.dropWhile (· == '0') = []) :
    withoutLeadingZeros digits = ['0'] := by
  rw [withoutLeadingZeros, zeros]

theorem withoutLeadingZeros_of_other {digits : List Char} (other : digits.dropWhile (· == '0') ≠ []) :
    withoutLeadingZeros digits = digits.dropWhile (· == '0') := by
  unfold withoutLeadingZeros
  split
  case _ none => exact absurd none other
  case _ => rfl

theorem withoutLeadingZeros_singleton (digit : Char) : withoutLeadingZeros [digit] = [digit] := by
  by_cases zero : digit = '0'
  · rw [zero]
    rfl
  · simp [withoutLeadingZeros, zero]

/-- What stands behind digits that are not all zeros stays. -/
theorem withoutLeadingZeros_append (digits behind : List Char) :
    withoutLeadingZeros (digits ++ behind) =
      if digits.dropWhile (· == '0') = [] then withoutLeadingZeros behind
      else withoutLeadingZeros digits ++ behind := by
  split
  case _ zeros =>
    unfold withoutLeadingZeros
    rw [List.dropWhile_append, zeros]
    rfl
  case _ other =>
    have dropped : (digits ++ behind).dropWhile (· == '0') = digits.dropWhile (· == '0') ++ behind := by
      rw [List.dropWhile_append, if_neg (by simpa using other)]
    rw [withoutLeadingZeros_of_other other, withoutLeadingZeros_of_other, dropped]
    rw [dropped]
    exact List.append_ne_nil_of_left_ne_nil other _

/-- The zeros that were dropped are as many as are missing. -/
theorem replicate_withoutLeadingZeros {digits : List Char} (nonempty : digits ≠ []) :
    (withoutLeadingZeros digits).length ≤ digits.length ∧
      List.replicate (digits.length - (withoutLeadingZeros digits).length) '0' ++
        withoutLeadingZeros digits = digits := by
  have parted := List.takeWhile_append_dropWhile (p := (· == '0')) (l := digits)
  have front : digits.takeWhile (· == '0') =
      List.replicate (digits.takeWhile (· == '0')).length '0' :=
    List.eq_replicate_iff.2 ⟨rfl, fun char member => by simpa using List.mem_takeWhile_imp member⟩
  generalize (digits.takeWhile (· == '0')).length = count at front
  rw [front] at parted
  by_cases zeros : digits.dropWhile (· == '0') = []
  · rw [zeros, List.append_nil] at parted
    rw [withoutLeadingZeros_of_zeros zeros, ← parted]
    cases count with
    | zero => exact absurd parted.symm nonempty
    | succ count => simp [List.replicate_succ']
  · rw [withoutLeadingZeros_of_other zeros]
    generalize digits.dropWhile (· == '0') = rest at parted
    subst parted
    simp

theorem digitValue?_lt {char : Char} {value : Nat} (known : digitValue? char = some value) :
    value < 10 := by
  unfold digitValue? at known
  split at known
  · split at known
    case _ digit =>
      cases known
      have range := toNat_of_basic digit
      omega
    case _ => cases known
  · obtain ⟨first, found, rfl⟩ := Option.map_eq_some_iff.1 known
    have within := List.find?_some found
    simp only [Bool.and_eq_true, decide_eq_true_eq] at within
    omega

theorem digit_lt (char : Char) : (digitValue? char).getD 0 < 10 := by
  cases known : digitValue? char with
  | none => decide
  | some value => exact digitValue?_lt known

theorem digitsValue_eq_zero_iff (digits : List Char) :
    digitsValue digits = 0 ↔ (digits.map basicDigit).dropWhile (· == '0') = [] := by
  simp only [List.dropWhile_eq_nil_iff, List.forall_mem_map, beq_iff_eq, basicDigit,
    Nat.digitChar_eq_zero]
  induction digits using List.reverseRecOn with
  | nil => simp [digitsValue]
  | append_singleton digits last ih =>
      rw [digitsValue_concat, List.forall_mem_append, ← ih]
      simp

/-- The digits of the number that digits stand for are the digits themselves, but for zeros in front. -/
theorem toDigits_digitsValue (digits : List Char) :
    Nat.toDigits 10 (digitsValue digits) = withoutLeadingZeros (digits.map basicDigit) := by
  -- From the end: a last digit is written behind the others unless these are all zeros.
  induction digits using List.reverseRecOn with
  | nil => rfl
  | append_singleton digits last ih =>
      have single : Nat.toDigits 10 ((digitValue? last).getD 0) = [basicDigit last] :=
        Nat.toDigits_of_lt_base (digit_lt last)
      rw [digitsValue_concat, List.map_append, withoutLeadingZeros_append]
      split
      case _ zeros =>
        rw [(digitsValue_eq_zero_iff digits).2 zeros, Nat.mul_zero, Nat.zero_add, single]
        exact (withoutLeadingZeros_singleton _).symm
      case _ other =>
        have positive : 0 < digitsValue digits :=
          Nat.pos_of_ne_zero (mt (digitsValue_eq_zero_iff digits).1 other)
        rw [← Nat.toDigits_append_toDigits (by decide) positive (digit_lt last), ih, single]
        rfl

end Text

/-! ## Numerals -/

open Text (isDigit digitsValue basicDigit withoutLeadingZeros)

/-- A number as programs write it: digits of any script, and possibly a point with digits behind it. -/
structure Numeral where
  whole : List Char
  /-- What stands behind the point, if there is a point. -/
  fraction : Option (List Char)
  nonempty : whole ≠ []
  digital : ∀ char ∈ whole, isDigit char = true
  fractionDigital : ∀ digits ∈ fraction, ∀ char ∈ digits, isDigit char = true

namespace Numeral

/-- The digits behind the point. -/
def places (numeral : Numeral) : List Char :=
  numeral.fraction.getD []

/-- How the number is written in a program. -/
def written (numeral : Numeral) : List Char :=
  numeral.whole ++ (numeral.fraction.map ('.' :: ·)).getD []

/-- How the number is to be printed: as it is written, in digits of the basic block, without zeros in
front and without a point at its end. -/
def printed (numeral : Numeral) : List Char :=
  withoutLeadingZeros (numeral.whole.map basicDigit) ++
    if numeral.places = [] then [] else '.' :: numeral.places.map basicDigit

/-- What may follow the number in a program: nothing, a blank, or two points, unless the number ends in a
point itself. -/
inductive FollowedBy (numeral : Numeral) : List Char → Prop
  | nothing : FollowedBy numeral []
  | blank {char : Char} (rest : List Char) (separates : LexemeSort.isSeparator char = true) :
      FollowedBy numeral (char :: rest)
  | points (rest : List Char) (unpointed : numeral.fraction ≠ some []) :
      FollowedBy numeral ('.' :: '.' :: rest)

variable (numeral : Numeral)

theorem isDigit_places : ∀ char ∈ numeral.places, isDigit char = true := by
  unfold places
  cases known : numeral.fraction with
  | none => exact List.forall_mem_nil _
  | some digits => exact numeral.fractionDigital digits known

/-! ## One token -/

theorem isNumber : LexemeSort.IsNumber numeral.written := by
  unfold written
  cases known : numeral.fraction with
  | none =>
      rw [Option.map_none, Option.getD_none, List.append_nil]
      exact .whole numeral.nonempty numeral.digital
  | some digits =>
      exact .fraction numeral.nonempty numeral.digital (numeral.fractionDigital digits known)

/-- The number ends in a point only if nothing stands behind its point. -/
theorem getLast?_written (unpointed : numeral.fraction ≠ some []) :
    numeral.written.getLast? ≠ some '.' := by
  intro pointed
  have last : '.' ∈ numeral.whole ∨ '.' ∈ numeral.places := by
    unfold written at pointed
    unfold places
    cases known : numeral.fraction with
    | none =>
        rw [known, Option.map_none, Option.getD_none, List.append_nil] at pointed
        exact .inl (List.mem_of_getLast? pointed)
    | some digits =>
        rw [known] at unpointed pointed
        have nonempty : digits ≠ [] := fun none => unpointed (congrArg some none)
        rw [Option.map_some, Option.getD_some, List.getLast?_append_of_ne_nil _ (List.cons_ne_nil _ _),
          List.getLast?_cons_of_ne_nil nonempty] at pointed
        exact .inr (List.mem_of_getLast? pointed)
  rcases last with inside | behind
  · cases numeral.digital '.' inside
  · cases numeral.isDigit_places '.' behind

variable {numeral} {rest : List Char}

theorem FollowedBy.closes (follows : numeral.FollowedBy rest) :
    LexemeSort.ClosesNumber numeral.written rest := by
  cases follows with
  | nothing => exact .other nofun
  | @blank char rest separates =>
      refine .other fun first same => ?_
      obtain rfl := Option.mem_some_iff.1 same
      have cases : char = ' ' ∨ char = '\t' ∨ char = '\x0c' ∨ char = '\r' ∨ char = '\n' := by
        simpa [LexemeSort.isSeparator, or_assoc] using separates
      rcases cases with rfl | rfl | rfl | rfl | rfl <;> exact ⟨rfl, by decide⟩
  | points rest unpointed => exact .points rest (numeral.getLast?_written unpointed)

theorem cut_written (follows : numeral.FollowedBy rest) :
    Lexeme.cut (numeral.written ++ rest) = ⟨.number, numeral.written⟩ :: Lexeme.cut rest :=
  Lexeme.cut_of_recognised numeral.isNumber.ne_nil (numeral.isNumber.ofText_eq follows.closes)
    (numeral.isNumber.extent_eq follows.closes)

theorem tokenAt_written (follows : numeral.FollowedBy rest) :
    (Script.ofSource (numeral.written ++ rest)).tokenAt 0 =
      ⟨.numberLiteral, some (String.ofList numeral.written), .start⟩ := by
  rw [Script.tokenAt, Script.ofSource, Token.proper, Token.lexemes, cut_written follows]
  rfl

/-! ## Its value and its text -/

variable (numeral)

/-- The number that is denoted. -/
def value : Decimal :=
  ⟨false, digitsValue (numeral.whole ++ numeral.places), -numeral.places.length⟩

theorem spells : Decimal.Spells (digitsValue (numeral.whole ++ numeral.places)) numeral.places.length
    numeral.written := by
  unfold places written
  cases known : numeral.fraction with
  | none =>
      simp only [Option.map_none, Option.getD_none, List.append_nil, List.length_nil]
      exact .whole _ numeral.nonempty numeral.digital
  | some digits =>
      exact .pointed _ _ numeral.nonempty numeral.digital (numeral.fractionDigital digits known)

theorem ofLiteral_written : Decimal.ofLiteral (String.ofList numeral.written) = numeral.value := by
  have parsed := numeral.spells.parse?_eq false
  rw [if_neg Bool.false_ne_true, List.nil_append] at parsed
  rw [Decimal.ofLiteral, String.toList_ofList, parsed]
  rfl

/-- With the zeros that are put in front of a fraction, its digits are those that were written. -/
theorem padded_digits (digits behind : List Char) (nonempty : behind ≠ []) :
    List.replicate (behind.length + 1 - (withoutLeadingZeros (digits ++ behind)).length) '0' ++
      withoutLeadingZeros (digits ++ behind) = withoutLeadingZeros digits ++ behind := by
  rw [Text.withoutLeadingZeros_append]
  split
  case _ zeros =>
    -- One zero more than are missing behind the point: it is the one that stands before the point.
    obtain ⟨le, filled⟩ := Text.replicate_withoutLeadingZeros nonempty
    rw [Nat.succ_sub le, List.replicate_succ, List.cons_append, filled,
      Text.withoutLeadingZeros_of_zeros zeros]
    rfl
  case _ other =>
    have positive : 0 < (withoutLeadingZeros digits).length := by
      rw [Text.withoutLeadingZeros_of_other other]
      exact List.length_pos_iff.2 other
    have none : behind.length + 1 - (withoutLeadingZeros digits ++ behind).length = 0 := by
      rw [List.length_append]
      omega
    rw [none, List.replicate_zero, List.nil_append]

theorem text_value : numeral.value.text.toList = numeral.printed := by
  have positive : numeral.value.positional.negative = false := rfl
  have digits : numeral.value.digits =
      withoutLeadingZeros (numeral.whole.map basicDigit ++ numeral.places.map basicDigit) := by
    rw [← List.map_append]
    exact Text.toDigits_digitsValue _
  rw [Decimal.toList_text, positive, if_neg Bool.false_ne_true, List.nil_append, printed]
  have scale : numeral.value.exponent = -(numeral.places.length : Int) := rfl
  by_cases whole : numeral.places = []
  · have exponent : numeral.value.exponent = 0 := by
      rw [scale, whole]
      rfl
    rw [whole, List.map_nil, List.append_nil] at digits
    rw [if_pos whole, List.append_nil, Decimal.magnitudeText, exponent, ← digits]
    simp
  · have positive := List.length_pos_iff.2 whole
    have exponent : numeral.value.exponent < 0 := by omega
    have places : (-numeral.value.exponent).toNat = (numeral.places.map basicDigit).length := by
      rw [List.length_map]
      omega
    rw [if_neg whole, Decimal.magnitudeText, if_pos exponent, places, digits]
    have nonempty : numeral.places.map basicDigit ≠ [] := by simpa using whole
    exact Decimal.insertPoint_eq _ _ nonempty (padded_digits _ _ nonempty)

/-! ## In a program -/

/-- A number that stands at the cursor is read and gives what it denotes. -/
theorem primary_number {script : Script} {machine : Machine}
    (stands : script.kindAt machine.cursor = .numberLiteral) (evaluator : Evaluator) (call : Exec Value)
    (fuel : Nat) :
    Exec.primary script evaluator call fuel machine =
      .ok (.number (.ofLiteral (script.tokenAt machine.cursor).word))
        { machine with cursor := machine.cursor + 1 } := by
  have current : Exec.current script machine = .ok (script.tokenAt machine.cursor) machine := rfl
  have literal : (script.tokenAt machine.cursor).kind = .numberLiteral := stands
  rw [Exec.primary, Exec.bind_of_ok current, literal]
  exact Exec.bind_of_ok (Exec.advance_eq (by rw [stands]; nofun)) _

variable {numeral}

/-- A number at the beginning of a program is one token with exactly its text, wherever a blank, the end
or a range allows it to end. Evaluated, it gives a number whose text is the one that was written. -/
theorem prints_as_written (follows : numeral.FollowedBy rest) (evaluator : Evaluator)
    (call : Exec Value) (fuel : Nat) {machine : Machine} (begins : machine.cursor = 0) :
    Lexeme.cut (numeral.written ++ rest) = ⟨.number, numeral.written⟩ :: Lexeme.cut rest ∧
      (Script.ofSource (numeral.written ++ rest)).tokenAt 0 =
        ⟨.numberLiteral, some (String.ofList numeral.written), .start⟩ ∧
      ∃ number : Decimal,
        Exec.primary (.ofSource (numeral.written ++ rest)) evaluator call fuel machine =
          .ok (.number number) { machine with cursor := 1 } ∧
        number.text.toList = numeral.printed := by
  have token := tokenAt_written follows
  refine ⟨cut_written follows, token, numeral.value, ?_, numeral.text_value⟩
  have stands : (Script.ofSource (numeral.written ++ rest)).kindAt machine.cursor = .numberLiteral := by
    rw [Script.kindAt, begins, token]
  have word : ((Script.ofSource (numeral.written ++ rest)).tokenAt machine.cursor).word =
      String.ofList numeral.written := by
    rw [begins, token]
    rfl
  rw [primary_number stands, word, numeral.ofLiteral_written, begins]

/-- Seven and a half with two places: zeros in front are dropped and the one behind stays, also before a
range. -/
theorem prints_as_written_before_range :
    let source := ['0', '0', '٧', '.', '5', '0', '.', '.', '9']
    ∃ numeral : Numeral, source = numeral.written ++ ['.', '.', '9'] ∧
      numeral.FollowedBy ['.', '.', '9'] ∧
      ∃ number : Decimal,
        Exec.primary (.ofSource source) ⟨pure .null, pure .normal⟩ (pure .null) 0 .initial =
          .ok (.number number) { Machine.initial with cursor := 1 } ∧
        number.text.toList = ['7', '.', '5', '0'] := by
  have whole : ∀ char ∈ ['0', '0', '٧'], isDigit char = true := List.all_eq_true.1 (by decide)
  have behind : ∀ char ∈ ['5', '0'], isDigit char = true := List.all_eq_true.1 (by decide)
  let numeral : Numeral := ⟨['0', '0', '٧'], some ['5', '0'], by decide, whole, by simpa using behind⟩
  have follows : numeral.FollowedBy ['.', '.', '9'] := .points _ nofun
  have printed : numeral.printed = ['7', '.', '5', '0'] := rfl
  obtain ⟨-, -, evaluated⟩ := prints_as_written follows ⟨pure .null, pure .normal⟩ (pure .null) 0
    (show Machine.initial.cursor = 0 from rfl)
  rw [printed] at evaluated
  exact ⟨numeral, rfl, follows, evaluated⟩

end Numeral

end Onepass
