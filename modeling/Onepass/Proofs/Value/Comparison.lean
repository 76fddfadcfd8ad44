import Mathlib.Data.String.Basic
import Onepass.Proofs.Decimal.Exact
import Onepass.Proofs.Value.Acyclic

/-! # Equality and order fit together

Comparing elements looks at a form of the values in which a truth value is a number, a character is a
text, and an array is the list of the forms of its elements; two values are equal if and only if their
forms are. So equality of elements is an equivalence, however freely it treats the tags, and equality
between values of one tag is one too. For acyclic values it always has an answer. On numbers, texts and
characters the operators of order are those of one total order, whose equality is the same.
-/

set_option autoImplicit false

namespace Onepass

theorem Value.exists_of_tag_array {value : Value} (array : value.tag = .array) :
    ∃ address, value = .array address := by
  cases value with
  | array address => exact ⟨address, rfl⟩
  | _ => cases array

/-- The two values may be compared: one of them is null, or both have the same tag. -/
def Value.Comparable (left right : Value) : Prop :=
  left.tag = .null ∨ right.tag = .null ∨ left.tag = right.tag

instance (left right : Value) : Decidable (left.Comparable right) :=
  inferInstanceAs (Decidable (_ ∨ _ ∨ _))

/-- The two values have an order: both are numbers, both are texts, or both are characters. -/
inductive Value.Ordered : Value → Value → Prop where
  | numbers (left right : Decimal) : Ordered (.number left) (.number right)
  | texts (left right : String) : Ordered (.string left) (.string right)
  | chars (left right : Char) : Ordered (.char left) (.char right)

/-! ## Forms -/

/-- What the comparison of elements looks at. -/
inductive Form where
  | null
  | number (value : ℚ)
  | text (text : String)
  | array (items : List Form)

namespace Heap

/-- The form of a value through so many levels of arrays. -/
def form (heap : Heap) : Nat → Value → Form
  | _, .null => .null
  | _, .boolean value => .number (Decimal.ofBool value).value
  | _, .number value => .number value.value
  | _, .string text => .text text
  | _, .char char => .text (String.singleton char)
  | 0, .array _ => .array []
  | depth + 1, .array address => .array ((heap.items address).toList.map (heap.form depth))

end Heap

theorem Decimal.equals_iff {left right : Decimal} :
    left.equals right = true ↔ left.value = right.value := by
  rw [equals, order_eq_compare, beq_iff_eq, compare_eq_iff_eq]

theorem Decimal.value_ofBool_inj {left right : Bool} :
    (ofBool left).value = (ofBool right).value ↔ left = right := by
  cases left <;> cases right <;> simp [ofBool, ofNat, value]

namespace Heap

variable {heap : Heap}

/-- Equality of elements that are not both arrays is equality of their forms. -/
theorem equalElements_iff {left right : Value} (plain : left.tag ≠ .array ∨ right.tag ≠ .array)
    (depth : Nat) :
    left.equalElements right = true ↔
      heap.form (depth + 1) left = heap.form (depth + 1) right := by
  cases left <;> cases right <;>
    simp_all [Value.equalElements, Value.tag, form, Decimal.equals_iff, Decimal.value_ofBool_inj]

/-- Comparing two lists compares the lists of forms if comparing elements compares their forms. -/
theorem equalLists_iff {equal : Value → Value → Option Bool} {form : Value → Form}
    (elements : ∀ left right answer, equal left right = some answer →
      (answer = true ↔ form left = form right))
    {lefts rights : List Value} {answer : Bool}
    (compared : equalLists equal lefts rights = some answer) :
    answer = true ↔ lefts.map form = rights.map form := by
  induction lefts generalizing rights with
  | nil =>
      cases rights with
      | nil =>
          cases compared
          exact iff_of_true rfl rfl
      | cons right rights =>
          cases compared
          exact iff_of_false Bool.false_ne_true nofun
  | cons left lefts ih =>
      cases rights with
      | nil =>
          cases compared
          exact iff_of_false Bool.false_ne_true nofun
      | cons right rights =>
          rw [List.map_cons, List.map_cons, List.cons.injEq]
          cases found : equal left right with
          | none =>
              rw [equalLists, found] at compared
              cases compared
          | some same =>
              rw [equalLists, found] at compared
              rw [← elements left right same found]
              cases same with
              | true => exact (ih compared).trans (and_iff_right rfl).symm
              | false =>
                  cases compared
                  exact iff_of_false Bool.false_ne_true fun both => Bool.false_ne_true both.1

theorem equalWithin_plain {left right : Value} (plain : left.tag ≠ .array ∨ right.tag ≠ .array)
    (depth : Nat) : heap.equalWithin (depth + 1) left right = some (left.equalElements right) := by
  cases left with
  | array left =>
      cases right with
      | array right => exact absurd rfl (plain.elim id id)
      | _ => rfl
  | _ => rfl

/-- An answer to whether two elements are equal says whether their forms are. -/
theorem equalWithin_iff {depth : Nat} {left right : Value} {answer : Bool}
    (compared : heap.equalWithin depth left right = some answer) :
    answer = true ↔ heap.form depth left = heap.form depth right := by
  induction depth generalizing left right answer with
  | zero => cases compared
  | succ depth ih =>
      by_cases plain : left.tag ≠ .array ∨ right.tag ≠ .array
      · rw [equalWithin_plain plain, Option.some.injEq] at compared
        rw [← compared]
        exact equalElements_iff plain depth
      · rw [not_or, not_not, not_not] at plain
        obtain ⟨left, rfl⟩ := Value.exists_of_tag_array plain.1
        obtain ⟨right, rfl⟩ := Value.exists_of_tag_array plain.2
        rw [equalWithin] at compared
        split at compared
        -- One array is not looked into, but then there is only one form.
        case _ same =>
          cases compared
          rw [same]
          exact iff_of_true rfl rfl
        case _ =>
          split at compared
          case _ sizes =>
            cases compared
            refine iff_of_false Bool.false_ne_true fun forms => sizes ?_
            have lengths := congrArg List.length (Form.array.inj forms)
            rw [List.length_map, List.length_map] at lengths
            exact lengths
          case _ =>
            rw [equalLists_iff (fun _ _ _ found => ih found) compared]
            exact (Form.array.injEq _ _).symm.to_iff

/-! ## Comparisons that end -/

theorem equalLists_total {equal : Value → Value → Option Bool} {lefts : List Value}
    (elements : ∀ left ∈ lefts, ∀ right, ∃ answer, equal left right = some answer)
    (rights : List Value) : ∃ answer, equalLists equal lefts rights = some answer := by
  induction lefts generalizing rights with
  | nil => cases rights <;> exact ⟨_, rfl⟩
  | cons left lefts ih =>
      cases rights with
      | nil => exact ⟨_, rfl⟩
      | cons right rights =>
          obtain ⟨same, found⟩ := elements left List.mem_cons_self right
          rw [equalLists, found]
          cases same with
          | true => exact ih (fun other member => elements other (List.mem_cons_of_mem _ member)) rights
          | false => exact ⟨false, rfl⟩

/-- A comparison has an answer if those of the elements have, one level further down. -/
theorem equalWithin_succ_total {depth : Nat} {left : Value}
    (elements : ∀ inner ∈ heap.elements left, ∀ right,
      ∃ answer, heap.equalWithin depth inner right = some answer)
    (right : Value) : ∃ answer, heap.equalWithin (depth + 1) left right = some answer := by
  by_cases plain : left.tag ≠ .array ∨ right.tag ≠ .array
  · exact ⟨_, equalWithin_plain plain depth⟩
  · rw [not_or, not_not, not_not] at plain
    obtain ⟨left, rfl⟩ := Value.exists_of_tag_array plain.1
    obtain ⟨right, rfl⟩ := Value.exists_of_tag_array plain.2
    rw [equalWithin]
    split
    · exact ⟨true, rfl⟩
    · split
      · exact ⟨false, rfl⟩
      · exact equalLists_total elements _

theorem equalWithin_total {depth : Nat} {left : Value} (nests : heap.Nests depth left)
    (right : Value) : ∃ answer, heap.equalWithin (depth + 1) left right = some answer := by
  -- The depth of the left value is enough: the comparison goes down in both values at once.
  induction depth generalizing left right with
  | zero =>
      refine equalWithin_succ_total (fun inner member => ?_) right
      rw [nests] at member
      cases member
  | succ depth ih => exact equalWithin_succ_total (fun inner member => ih (nests inner member)) right

theorem equal_total {left : Value} (acyclic : heap.Acyclic left) (right : Value) :
    ∃ answer, heap.equal? left right = some answer :=
  equalWithin_total acyclic.nests right

/-! ## Equality of values -/

/-- The form of a value as far as comparisons go. -/
def fullForm (heap : Heap) (value : Value) : Form :=
  heap.form (heap.size + 1) value

theorem fullForm_null_iff {value : Value} : heap.fullForm value = .null ↔ value.tag = .null := by
  cases value <;> simp [fullForm, form, Value.tag]

/-- Values that may be compared have an answer, which says whether their forms are equal. -/
theorem equality_of_comparable {left right : Value} (acyclic : heap.Acyclic left)
    (comparable : left.Comparable right) :
    ∃ answer, (∀ operator, heap.equality operator left right = .ok answer) ∧
      (answer = true ↔ heap.fullForm left = heap.fullForm right) := by
  unfold equality
  by_cases null : left.tag = .null ∨ right.tag = .null
  · refine ⟨_, fun _ => if_pos null, ?_⟩
    rw [decide_eq_true_iff]
    rcases null with null | null
    · rw [null, fullForm_null_iff.2 null, eq_comm, ← fullForm_null_iff, eq_comm]
    · rw [null, fullForm_null_iff.2 null, fullForm_null_iff]
  · have values := not_or.1 null
    have same := (comparable.resolve_left values.1).resolve_left values.2
    obtain ⟨answer, compared⟩ := equal_total acyclic right
    refine ⟨answer, fun operator => ?_, equalWithin_iff compared⟩
    rw [if_neg null, if_neg (not_not.2 same), compared]

theorem equality_of_not_comparable {left right : Value} (incomparable : ¬ left.Comparable right)
    (operator : BinaryOperator) :
    heap.equality operator left right = .error (operator.mismatch left right) := by
  unfold Value.Comparable at incomparable
  rw [not_or, not_or] at incomparable
  obtain ⟨first, second, different⟩ := incomparable
  unfold equality
  rw [if_neg (not_or.2 ⟨first, second⟩), if_pos different]

/-- Only values of the same tag are equal. -/
theorem tag_eq_of_fullForm {left right : Value} (comparable : left.Comparable right)
    (forms : heap.fullForm left = heap.fullForm right) : left.tag = right.tag := by
  have nulls := @fullForm_null_iff heap left
  rw [forms, fullForm_null_iff] at nulls
  rcases comparable with null | null | same
  · rw [null, nulls.2 null]
  · rw [null, nulls.1 null]
  · exact same

end Heap

/-! ## Order -/

namespace Value

variable {left right : Value}

theorem order?_of_not_ordered (unordered : ¬ left.Ordered right) : left.order? right = none := by
  cases left with
  | number left =>
      cases right with
      | number right => exact absurd (.numbers left right) unordered
      | _ => rfl
  | string left =>
      cases right with
      | string right => exact absurd (.texts left right) unordered
      | _ => rfl
  | char left =>
      cases right with
      | char right => exact absurd (.chars left right) unordered
      | _ => rfl
  | _ => rfl

theorem Ordered.exists_order? (ordered : left.Ordered right) :
    ∃ order, left.order? right = some order := by
  cases ordered <;> exact ⟨_, rfl⟩

theorem ordered_of_order? {order : Ordering} (found : left.order? right = some order) :
    left.Ordered right := by
  by_contra unordered
  rw [order?_of_not_ordered unordered] at found
  cases found

/-- Neither of two values comes first if and only if their forms are equal. -/
theorem order?_eq_iff {order : Ordering} (found : left.order? right = some order) (heap : Heap) :
    order = .eq ↔ heap.fullForm left = heap.fullForm right := by
  cases ordered_of_order? found with
  | numbers left right =>
      cases found
      rw [Decimal.order_eq_compare, compare_eq_iff_eq]
      exact (Form.number.injEq _ _).symm.to_iff
  | texts left right =>
      cases found
      rw [compare_eq_iff_eq]
      exact (Form.text.injEq _ _).symm.to_iff
  | chars left right =>
      cases found
      rw [compare_eq_iff_eq, ← String.singleton_inj]
      exact (Form.text.injEq _ _).symm.to_iff

theorem order?_lt_trans {first second third : Value} (less : first.order? second = some .lt)
    (next : second.order? third = some .lt) : first.order? third = some .lt := by
  have nextOrdered := ordered_of_order? next
  cases ordered_of_order? less with
  | numbers first second =>
      cases nextOrdered with
      | numbers _ third =>
          simp only [order?, Option.some.injEq, Decimal.order_eq_compare,
            compare_lt_iff_lt] at less next ⊢
          exact less.trans next
  | texts first second =>
      cases nextOrdered with
      | texts _ third =>
          simp only [order?, Option.some.injEq] at less next ⊢
          exact Std.TransCmp.lt_trans less next
  | chars first second =>
      cases nextOrdered with
      | chars _ third =>
          simp only [order?, Option.some.injEq] at less next ⊢
          exact Std.TransCmp.lt_trans less next

end Value

namespace Heap

variable {heap : Heap} {left right : Value}

/-! ## Operators -/

/-- The operator has this truth value as its result. -/
def Decides (heap : Heap) (operator : BinaryOperator) (left right : Value) (answer : Bool) : Prop :=
  heap.binary operator left right = .ok (.boolean answer)

theorem refuses_of_mismatch {operator : BinaryOperator}
    (refused : heap.binary operator left right = .error (operator.mismatch left right)) :
    heap.Refuses operator left right .type :=
  ⟨_, refused, rfl⟩

/-- The answer of `==` says whether the forms are equal; that of `!=` says the opposite. -/
theorem exists_decides_equal (acyclic : heap.Acyclic left) (comparable : left.Comparable right) :
    ∃ answer, heap.Decides .equal left right answer ∧ heap.Decides .differ left right !answer ∧
      (answer = true ↔ heap.fullForm left = heap.fullForm right) := by
  obtain ⟨answer, compared, same⟩ := equality_of_comparable acyclic comparable
  refine ⟨answer, ?_, ?_, same⟩
  · rw [Decides, binary, compared]
    rfl
  · rw [Decides, binary, compared]
    rfl

theorem refuses_equal (incomparable : ¬ left.Comparable right) :
    heap.Refuses .equal left right .type ∧ heap.Refuses .differ left right .type := by
  constructor <;> apply refuses_of_mismatch <;>
    rw [binary, equality_of_not_comparable incomparable] <;> rfl

theorem decides_equal_iff (acyclic : heap.Acyclic left) {answer : Bool} :
    heap.Decides .equal left right answer ↔
      left.Comparable right ∧ (answer = true ↔ heap.fullForm left = heap.fullForm right) := by
  by_cases comparable : left.Comparable right
  · obtain ⟨found, compared, -, same⟩ := exists_decides_equal acyclic comparable
    rw [Decides, compared, Except.ok.injEq, Value.boolean.injEq, ← same, Bool.eq_iff_iff]
    exact iff_comm.trans (and_iff_right comparable).symm
  · obtain ⟨⟨cause, refused, -⟩, -⟩ := @refuses_equal heap _ _ comparable
    rw [Decides, refused]
    exact iff_of_false nofun fun both => comparable both.1

theorem Decides.equal_symm {answer : Bool} (acyclic : heap.Acyclic left)
    (other : heap.Acyclic right) (compared : heap.Decides .equal left right answer) :
    heap.Decides .equal right left answer := by
  obtain ⟨comparable, same⟩ := (decides_equal_iff acyclic).1 compared
  refine (decides_equal_iff other).2 ⟨?_, same.trans eq_comm⟩
  rcases comparable with null | null | tags
  · exact .inr (.inl null)
  · exact .inl null
  · exact .inr (.inr tags.symm)

theorem Decides.equal_trans {first second third : Value} (acyclic : heap.Acyclic first)
    (other : heap.Acyclic second) (one : heap.Decides .equal first second true)
    (two : heap.Decides .equal second third true) : heap.Decides .equal first third true := by
  obtain ⟨comparable, same⟩ := (decides_equal_iff acyclic).1 one
  obtain ⟨nextComparable, next⟩ := (decides_equal_iff other).1 two
  have forms := same.1 rfl
  have nextForms := next.1 rfl
  have tags := tag_eq_of_fullForm comparable forms
  refine (decides_equal_iff acyclic).2 ⟨?_, iff_of_true rfl (forms.trans nextForms)⟩
  exact .inr (.inr (tags.trans (tag_eq_of_fullForm nextComparable nextForms)))

/-- The operators of order test one order. -/
theorem decides_of_order? {order : Ordering} (found : left.order? right = some order) :
    heap.Decides .less left right order.isLT ∧ heap.Decides .greater left right order.isGT ∧
      heap.Decides .lessOrEqual left right order.isLE ∧
      heap.Decides .greaterOrEqual left right order.isGE := by
  have compared (operator : BinaryOperator) (test : Ordering → Bool) :
      comparison operator test left right = .ok (.boolean (test order)) := by
    rw [comparison, found]
  exact ⟨compared _ _, compared _ _, compared _ _, compared _ _⟩

theorem decides_less_iff : heap.Decides .less left right true ↔ left.order? right = some .lt := by
  constructor
  · intro less
    cases found : left.order? right with
    | none =>
        rw [Decides, binary, comparison, found] at less
        cases less
    | some order =>
        rw [Decides, (decides_of_order? found).1, Except.ok.injEq, Value.boolean.injEq] at less
        cases order with
        | lt => rfl
        | eq => cases less
        | gt => cases less
  · exact fun found => (decides_of_order? found).1

theorem refuses_order (unordered : ¬ left.Ordered right) {operator : BinaryOperator}
    (orders : operator ∈ [.less, .greater, .lessOrEqual, .greaterOrEqual]) :
    heap.Refuses operator left right .type := by
  have refused (test : Ordering → Bool) :
      comparison operator test left right = .error (operator.mismatch left right) := by
    rw [comparison, Value.order?_of_not_ordered unordered]
  simp only [List.mem_cons, List.not_mem_nil, or_false] at orders
  apply refuses_of_mismatch
  rcases orders with rfl | rfl | rfl | rfl <;> exact refused _

theorem decides_equal_of_order? {order : Ordering} (found : left.order? right = some order) :
    heap.Decides .equal left right order.isEq := by
  have tags : left.tag = right.tag ∧ left.tag ≠ .array := by
    cases Value.ordered_of_order? found <;> exact ⟨rfl, nofun⟩
  rw [decides_equal_iff (acyclic_of_tag tags.2), Ordering.isEq_iff_eq_eq]
  exact ⟨.inr (.inr tags.1), Value.order?_eq_iff found heap⟩

/-- On numbers the operators are those of the rational order. -/
theorem decides_numbers (left right : Decimal) :
    heap.Decides .less (.number left) (.number right) (left.value < right.value) ∧
      heap.Decides .equal (.number left) (.number right) (left.value = right.value) ∧
      heap.Decides .greater (.number left) (.number right) (left.value > right.value) ∧
      heap.Decides .lessOrEqual (.number left) (.number right) (left.value ≤ right.value) ∧
      heap.Decides .greaterOrEqual (.number left) (.number right) (left.value ≥ right.value) := by
  have found : (Value.number left).order? (.number right) =
      some (compare left.value right.value) := by
    rw [Value.order?, Decimal.order_eq_compare]
  obtain ⟨less, greater, lessOrEqual, greaterOrEqual⟩ := @decides_of_order? heap _ _ _ found
  have equal := @decides_equal_of_order? heap _ _ _ found
  rcases lt_trichotomy left.value right.value with before | same | behind
  · rw [compare_lt_iff_lt.2 before] at less equal greater lessOrEqual greaterOrEqual
    simp only [before, before.ne, before.le, before.not_gt, before.not_ge, decide_true,
      decide_false]
    exact ⟨less, equal, greater, lessOrEqual, greaterOrEqual⟩
  · rw [compare_eq_iff_eq.2 same] at less equal greater lessOrEqual greaterOrEqual
    simp only [same, gt_iff_lt, ge_iff_le, lt_irrefl, le_refl, decide_true, decide_false]
    exact ⟨less, equal, greater, lessOrEqual, greaterOrEqual⟩
  · rw [compare_gt_iff_gt.2 behind] at less equal greater lessOrEqual greaterOrEqual
    simp only [behind, behind.ne', behind.le, behind.not_gt, behind.not_ge, decide_true,
      decide_false]
    exact ⟨less, equal, greater, lessOrEqual, greaterOrEqual⟩

/-- Equality and order fit together. Between acyclic values that may be compared `==` has an answer, to
which that of `!=` is the opposite, and it is an equivalence; other values both operators refuse. Of two
numbers, texts or characters exactly one of `<`, `==` and `>` holds; `<=` and `>=` are these or `==`;
`<` is transitive; and on numbers they are the order of the values, whatever the scales. All other
values the operators of order refuse. -/
theorem comparison_coherent (heap : Heap) :
    (∀ left right, heap.Acyclic left → heap.Acyclic right →
      (left.Comparable right →
        ∃ answer, heap.Decides .equal left right answer ∧ heap.Decides .differ left right !answer) ∧
      (¬ left.Comparable right →
        heap.Refuses .equal left right .type ∧ heap.Refuses .differ left right .type) ∧
      ∀ answer, heap.Decides .equal left right answer → heap.Decides .equal right left answer) ∧
    (∀ value, heap.Acyclic value → heap.Decides .equal value value true) ∧
    (∀ first second third, heap.Acyclic first → heap.Acyclic second → heap.Acyclic third →
      heap.Decides .equal first second true → heap.Decides .equal second third true →
      heap.Decides .equal first third true) ∧
    (∀ left right : Value, left.Ordered right →
      ∃ less equal greater, heap.Decides .less left right less ∧
        heap.Decides .equal left right equal ∧ heap.Decides .greater left right greater ∧
        [less, equal, greater].count true = 1 ∧
        heap.Decides .lessOrEqual left right (less || equal) ∧
        heap.Decides .greaterOrEqual left right (greater || equal)) ∧
    (∀ first second third, heap.Decides .less first second true →
      heap.Decides .less second third true → heap.Decides .less first third true) ∧
    (∀ left right : Decimal,
      heap.Decides .less (.number left) (.number right) (left.value < right.value) ∧
        heap.Decides .equal (.number left) (.number right) (left.value = right.value) ∧
        heap.Decides .greater (.number left) (.number right) (left.value > right.value) ∧
        heap.Decides .lessOrEqual (.number left) (.number right) (left.value ≤ right.value) ∧
        heap.Decides .greaterOrEqual (.number left) (.number right) (left.value ≥ right.value)) ∧
    (∀ left right : Value, ¬ left.Ordered right →
      ∀ operator ∈ [.less, .greater, .lessOrEqual, .greaterOrEqual],
        heap.Refuses operator left right .type) := by
  refine ⟨fun left right acyclic other => ⟨?_, refuses_equal, fun answer => ?_⟩, ?_, ?_, ?_, ?_,
    decides_numbers, fun left right unordered operator orders => refuses_order unordered orders⟩
  · intro comparable
    obtain ⟨answer, equal, differ, -⟩ := exists_decides_equal acyclic comparable
    exact ⟨answer, equal, differ⟩
  · exact Decides.equal_symm acyclic other
  · intro value acyclic
    exact (decides_equal_iff acyclic).2 ⟨.inr (.inr rfl), iff_of_true rfl rfl⟩
  · intro first second third acyclic other _ one two
    exact one.equal_trans acyclic other two
  · intro left right ordered
    obtain ⟨order, found⟩ := ordered.exists_order?
    obtain ⟨less, greater, lessOrEqual, greaterOrEqual⟩ := @decides_of_order? heap _ _ _ found
    refine ⟨_, _, _, less, decides_equal_of_order? found, greater, ?_⟩
    cases order <;> exact ⟨rfl, lessOrEqual, greaterOrEqual⟩
  · intro first second third one two
    rw [decides_less_iff] at one two ⊢
    exact Value.order?_lt_trans one two

/-- Two nested arrays that are equal although no two of their plain elements have the same tag, the
number one in three scales, three texts, and a character that is no array. -/
theorem comparison_coherent_nested :
    let heap : Heap := ⟨#[⟨#[.number ⟨false, 1, 0⟩, .boolean false], none⟩,
      ⟨#[.array 0, .char 'a'], none⟩, ⟨#[.boolean true, .number ⟨true, 0, 7⟩], none⟩,
      ⟨#[.array 2, .string "a"], none⟩]⟩
    heap.Acyclic (.array 1) ∧ heap.Acyclic (.array 3) ∧
      heap.Decides .equal (.array 1) (.array 3) true ∧
      heap.Decides .differ (.array 1) (.array 3) false ∧
      heap.Decides .equal (.array 3) (.array 1) true ∧
      heap.Decides .equal (.array 3) (.array 3) true ∧
      heap.Refuses .equal (.array 1) (.char 'a') .type ∧
      heap.Decides .equal (.number ⟨false, 1, 0⟩) (.number ⟨false, 100, -2⟩) true ∧
      heap.Decides .less (.string "a") (.string "b") true ∧
      heap.Decides .less (.string "a") (.string "ba") true ∧
      heap.Decides .greaterOrEqual (.string "a") (.string "b") false ∧
      heap.Refuses .less (.array 1) (.array 3) .type := by
  intro heap
  obtain ⟨pairs, reflexive, transitive, trichotomy, increasing, numbers, unordered⟩ :=
    comparison_coherent heap
  have leaf {value : Value} (plain : value.tag ≠ .array) : heap.Acyclic value := acyclic_of_tag plain
  have pair {address : Address} {first second : Value}
      (items : heap.elements (.array address) = [first, second]) (one : heap.Acyclic first)
      (two : heap.Acyclic second) : heap.Acyclic (.array address) := by
    refine acyclic_of_elements fun element holds => ?_
    rw [items] at holds
    rcases List.mem_pair.1 holds with rfl | rfl
    · exact one
    · exact two
  have first : heap.Acyclic (.array 1) :=
    pair rfl (pair rfl (leaf (by decide)) (leaf (by decide))) (leaf (by decide))
  have second : heap.Acyclic (.array 3) :=
    pair rfl (pair rfl (leaf (by decide)) (leaf (by decide))) (leaf (by decide))
  obtain ⟨answered, -, symmetric⟩ := pairs (.array 1) (.array 3) first second
  obtain ⟨-, refused, -⟩ := pairs (.array 1) (.char 'a') first (leaf (by decide))
  have compared : heap.Decides .equal (.array 1) (.array 3) true := by
    unfold Decides
    cbv
  have differ : heap.Decides .differ (.array 1) (.array 3) false := by
    obtain ⟨answer, equal, differ⟩ := answered (.inr (.inr rfl))
    cases compared.symm.trans equal
    exact differ
  have tenths := (numbers ⟨false, 1, 0⟩ ⟨false, 10, -1⟩).2.1
  have hundredths := (numbers ⟨false, 10, -1⟩ ⟨false, 100, -2⟩).2.1
  rw [decide_eq_true (by norm_num [Decimal.value])] at tenths hundredths
  have less : heap.Decides .less (.string "a") (.string "b") true := by
    unfold Decides
    cbv
  have next : heap.Decides .less (.string "b") (.string "ba") true := by
    unfold Decides
    cbv
  obtain ⟨isLess, isEqual, isGreater, one, -, -, count, -, atLeast⟩ :=
    trichotomy (.string "a") (.string "b") (.texts _ _)
  cases less.symm.trans one
  have none : (isGreater || isEqual) = false := by
    revert count
    cases isEqual <;> cases isGreater <;> decide
  rw [none] at atLeast
  have numeral (number : Decimal) : heap.Acyclic (.number number) := leaf Tag.noConfusion
  have arrays : ¬ (Value.array 1).Ordered (.array 3) := by
    intro ordered
    cases ordered
  exact ⟨first, second, compared, differ, symmetric true compared, reflexive _ second,
    (refused (by decide)).1, transitive _ _ _ (numeral _) (numeral _) (numeral _) tenths hundredths,
    less, increasing _ _ _ less next, atLeast,
    unordered _ _ arrays .less (by decide)⟩

end Heap

end Onepass
