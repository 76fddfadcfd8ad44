import Onepass.Proofs.Slots
import Onepass.Proofs.Value.TypeText

/-! # Type tests

A type is written as a word with a pair of brackets for each dimension. Testing a value for it gives the
same as checking it against the declared type, which is also what a declaration of the type does. A word
that no value has as its tag cannot be tested; but behind brackets every word is let through.
-/

set_option autoImplicit false

namespace Onepass

open Text (isWordStart isWordPart IsBareWord)

/-! ## Types that can be tested -/

namespace DeclaredType

variable {type : DeclaredType}

theorem isType_of_testable : ∀ base ∈ Heap.testableBases, (Kind.ofWord base.toList).isType = true := by
  decide +kernel

theorem declarable_of_testable : ∀ base ∈ Heap.testableBases, base ∈ declarable := by
  decide

theorem isType_token (bare : IsBareWord type.base.toList)
    (named : type.base ∈ Heap.testableBases ∨ 0 < type.dimensions) (position : Position) :
    (type.token position).kind.isType = true := by
  rcases Nat.eq_zero_or_pos type.dimensions with flat | nested
  · rw [token, text_of_flat flat]
    exact isType_of_testable _ (named.resolve_right (by omega))
  · rw [token, Kind.ofWord, if_pos ((bracketed_text_iff bare).mpr nested)]
    rfl

end DeclaredType

/-! ## The answer to a test -/

namespace Heap

variable {type : DeclaredType}

theorem conforms_nested {heap : Heap} {value : Value} (nested : 0 < type.dimensions)
    (conforming : heap.conforms value type = true) : value.tag = .array := by
  obtain ⟨base, dimensions⟩ := type
  cases dimensions with
  | zero => cases nested
  | succ dimensions => cases value <;> first | rfl | cases conforming

/-- A test of a type other than that of untyped arrays has an answer just if the word can be tested or
brackets follow it, and then it is whether the value conforms to the type. -/
theorem isType?_text (bare : IsBareWord type.base.toList) (other : type.base ≠ "array") (heap : Heap)
    (value : Value) :
    heap.isType? value type.text =
      if type.base ∈ testableBases ∨ 0 < type.dimensions then some (heap.conforms value type)
      else none := by
  rw [isType?, if_neg (DeclaredType.text_ne_array bare other)]
  rcases Nat.eq_zero_or_pos type.dimensions with flat | nested
  · have plain : ¬ "[]".toList.isSuffixOf type.text.toList = true := by
      rw [DeclaredType.bracketed_text_iff bare]
      omega
    rw [if_neg plain, DeclaredType.text_of_flat flat]
    by_cases testable : type.base ∈ testableBases
    · have full : type.base ≠ "void" := by
        intro same
        rw [same] at testable
        revert testable
        decide
      rw [if_pos testable, if_pos (.inl testable), conforms, flat, conformsTo, Value.conformsToBase,
        if_neg full]
    · rw [if_neg testable, if_neg (not_or_intro testable (by omega))]
  · rw [if_pos ((DeclaredType.bracketed_text_iff bare).mpr nested), if_pos (.inr nested),
      DeclaredType.ofName_text bare.unbracketed]
    cases conforming : heap.conforms value type with
    | false => simp
    | true => simp [conforms_nested nested conforming]

end Heap

/-! ## Tests and declarations in scripts -/

namespace Exec

variable {script : Script} {machine middle : Machine} {type : DeclaredType} {position : Position}
  {value : Value}

/-- A test looks whether its second token names a type. -/
theorem typeTests_test (test : script.kindAt machine.cursor = .keyword .isWord)
    (named : script.tokenAt (machine.cursor + 1) = type.token position) (fuel : Nat) :
    typeTests script (fuel + 1) value machine =
      (if (type.token position).kind.isType then do
          let _ ← advance script
          typeTests script fuel (← testOrConvert true value (type.token position))
        else refuse (.unsupportedType (type.token position).shown) position : Exec Value)
        { machine with cursor := machine.cursor + 1 } := by
  have looked : currentKind script machine = .ok (script.kindAt machine.cursor) machine := rfl
  have seen : current script { machine with cursor := machine.cursor + 1 } =
      .ok (type.token position) { machine with cursor := machine.cursor + 1 } := by
    rw [← named]
    rfl
  rw [typeTests, bind_of_ok looked, if_pos (.inl test), bind_of_ok (advance_eq (by rw [test]; nofun)),
    bind_of_ok seen, test]
  rfl

theorem advance_past_type (named : script.tokenAt machine.cursor = type.token position)
    (typed : (type.token position).kind.isType = true) :
    advance script machine = .ok (type.token position) { machine with cursor := machine.cursor + 1 } := by
  have proper : script.kindAt machine.cursor ≠ .endOfInput := by
    rw [Script.kindAt, named]
    intro ended
    rw [ended] at typed
    cases typed
  rw [← named]
  exact advance_eq proper

theorem testOrConvert_test :
    testOrConvert true value (type.token position) machine =
      ((machine.heap.isType? value type.text).elim (refuse (.unsupportedType type.text) position)
        (fun answer => pure (.boolean answer)) : Exec Value) machine := by
  have word : (type.token position).word = type.text := rfl
  rw [testOrConvert, if_pos rfl, get_bind_eq, word]
  cases machine.heap.isType? value type.text <;> rfl

/-- A test of a type with an answer goes on with the answer. -/
theorem typeTests_answered (test : script.kindAt machine.cursor = .keyword .isWord)
    (named : script.tokenAt (machine.cursor + 1) = type.token position)
    (typed : (type.token position).kind.isType = true) {answer : Bool}
    (answered : machine.heap.isType? value type.text = some answer) (fuel : Nat) :
    typeTests script (fuel + 1) value machine =
      typeTests script fuel (.boolean answer) { machine with cursor := machine.cursor + 2 } := by
  rw [typeTests_test test named, if_pos typed, bind_of_ok (advance_past_type named typed)]
  refine bind_of_ok ?_ _
  rw [testOrConvert_test, answered]
  rfl

/-- A test of a type without an answer fails at the type. -/
theorem typeTests_refused (test : script.kindAt machine.cursor = .keyword .isWord)
    (named : script.tokenAt (machine.cursor + 1) = type.token position) (written : type.text ≠ "")
    (unanswered : machine.heap.isType? value type.text = none) (fuel : Nat) :
    ∃ cursor, typeTests script (fuel + 1) value machine =
      .error (.diagnostic ⟨.unsupportedType type.text, position⟩) { machine with cursor } := by
  rw [typeTests_test test named]
  by_cases typed : (type.token position).kind.isType = true
  · refine ⟨machine.cursor + 2, ?_⟩
    rw [if_pos typed, bind_of_ok (advance_past_type named typed)]
    refine bind_of_error ?_ _
    rw [testOrConvert_test, unanswered]
    rfl
  · have shown : (type.token position).shown = type.text := by
      simp [Token.shown, Token.word, DeclaredType.token, written]
    exact ⟨machine.cursor + 1, by rw [if_neg typed, shown]; rfl⟩

/-- A declaration of a variable of the type begins at the cursor, with a name that is new, and the name
stands at the given place. -/
structure DeclaresAt (script : Script) (machine : Machine) (type : DeclaredType) (place : Nat) : Prop where
  begins : place = machine.cursor ∨
    script.kindAt machine.cursor = .symbol .dollar ∧ place = machine.cursor + 1
  named : script.kindAt place = .identifier
  fresh : machine.scopes.current.contains (script.tokenAt place).word = false
  colon : script.kindAt (place + 1) = .symbol .colon
  typed : ∃ position, script.tokenAt (place + 2) = type.token position
  equal : script.kindAt (place + 3) = .symbol .equal

theorem readType_text (bare : IsBareWord type.base.toList) (testable : type.base ∈ Heap.testableBases)
    (named : script.tokenAt machine.cursor = type.token position) :
    readType script machine = .ok type { machine with cursor := machine.cursor + 1 } := by
  have typed := DeclaredType.isType_token bare (.inl testable) position
  have declarable := DeclaredType.declarable_of_testable _ testable
  have found : script.typeAt machine.cursor = .ok type := by
    have read : DeclaredType.ofName (type.token position).word = type := DeclaredType.ofName_text bare.unbracketed
    rw [Script.typeAt, named]
    simp [typed, read, declarable]
  rw [readType, get_bind_eq, found]
  exact bind_of_ok (advance_past_type named typed) _

/-- A declaration of a variable succeeds just if the initial value conforms to the declared type. -/
theorem variableDeclaration_ok_iff {evaluator : Evaluator} {fuel place : Nat}
    (bare : IsBareWord type.base.toList) (testable : type.base ∈ Heap.testableBases)
    (declares : DeclaresAt script machine type place)
    (evaluated : initializer script evaluator type fuel { machine with cursor := place + 4 } =
      .ok value middle) :
    (∃ final, variableDeclaration script evaluator fuel machine = .ok () final) ↔
      middle.heap.conforms value type = true := by
  obtain ⟨begins, name, fresh, colon, ⟨position, typed⟩, equal⟩ := declares
  obtain ⟨constant, dollar⟩ : ∃ constant,
      accept script (.symbol .dollar) machine = .ok constant { machine with cursor := place } := by
    rcases begins with rfl | ⟨there, rfl⟩
    · exact ⟨false, accept_of_absent (by rw [name]; nofun)⟩
    · exact ⟨true, accept_of_there there nofun⟩
  have full : type ≠ .void := by
    rintro rfl
    revert testable
    decide
  have read (start : Machine) (symbol : Symbol) (there : script.kindAt start.cursor = .symbol symbol) :
      expectSymbol script symbol start = .ok () { start with cursor := start.cursor + 1 } :=
    bind_of_ok (expect_eq there nofun) _
  have declared : declaredVariable script evaluator fuel machine =
      (do
        adopt value (some type) (script.tokenAt (place + 4)).position
        return (script.tokenAt place, ⟨value, some type, constant⟩) : Exec (Token × Binding)) middle := by
    have named : expect script .identifier { machine with cursor := place } =
        .ok (script.tokenAt place) { machine with cursor := place + 1 } := expect_eq name nofun
    have unused : ¬ machine.scopes.current.contains (script.tokenAt place).word = true := by simp [fresh]
    have written : readType script { machine with cursor := place + 2 } =
        .ok type { machine with cursor := place + 3 } := readType_text bare testable typed
    rw [declaredVariable, bind_of_ok dollar, bind_of_ok named, get_bind_eq, if_neg unused]
    refine (bind_of_ok (read { machine with cursor := place + 1 } _ colon) _).trans ?_
    rw [bind_of_ok written, if_neg full]
    refine (bind_of_ok (read { machine with cursor := place + 3 } _ equal) _).trans ?_
    exact bind_of_ok evaluated _
  constructor
  · rintro ⟨final, succeeded⟩
    obtain ⟨_, _, stored, -⟩ := bind_ok succeeded
    rw [declared] at stored
    obtain ⟨_, _, adopted, -⟩ := bind_ok stored
    exact (adopt_ok_iff.mp adopted).1 type rfl
  · intro conforming
    have adopted : adopt value (some type) (script.tokenAt (place + 4)).position middle = .ok () _ :=
      adopt_ok_iff.mpr ⟨fun _ same => Option.some.inj same ▸ conforming, rfl⟩
    rw [bind_of_ok adopted] at declared
    exact ⟨_, bind_of_ok declared _⟩

/-- The test of a type agrees with conformance, and refuses words that cannot be tested, unless such a word
has brackets behind it: then the test answers whether the value conforms. A test in a script gives the
answer, or fails at the type if there is none, and a declaration of the type accepts what the test
accepts. -/
theorem type_test_agrees_iff {word : String} (bare : IsBareWord word.toList) (other : word ≠ "array")
    (dimensions : Nat) :
    let type : DeclaredType := ⟨word, dimensions⟩
    (∀ (heap : Heap) (value : Value),
      (heap.isType? value type.text =
          (if word ∈ Heap.testableBases then some (heap.conforms value type) else none) ↔
        word ∈ Heap.testableBases ∨ dimensions = 0) ∧
      (0 < dimensions → heap.isType? value type.text = some (heap.conforms value type))) ∧
    (∀ (script : Script) (machine : Machine) (position : Position) (value : Value) (fuel : Nat),
      script.kindAt machine.cursor = .keyword .isWord →
      script.tokenAt (machine.cursor + 1) = type.token position →
        (∀ answer, machine.heap.isType? value type.text = some answer →
          typeTests script (fuel + 1) value machine =
            typeTests script fuel (.boolean answer) { machine with cursor := machine.cursor + 2 }) ∧
        (machine.heap.isType? value type.text = none →
          ∃ cursor, typeTests script (fuel + 1) value machine =
            .error (.diagnostic ⟨.unsupportedType type.text, position⟩) { machine with cursor })) ∧
    (word ∈ Heap.testableBases →
      ∀ (script : Script) (machine middle : Machine) (evaluator : Evaluator) (value : Value)
        (fuel place : Nat), DeclaresAt script machine type place →
        initializer script evaluator type fuel { machine with cursor := place + 4 } = .ok value middle →
          ((∃ final, variableDeclaration script evaluator fuel machine = .ok () final) ↔
            middle.heap.isType? value type.text = some true)) := by
  intro type
  -- The answer of every test is known; the three parts are about where it is asked for.
  have answer (heap : Heap) (value : Value) : heap.isType? value type.text =
      if word ∈ Heap.testableBases ∨ 0 < dimensions then some (heap.conforms value type) else none :=
    Heap.isType?_text bare other heap value
  refine ⟨fun heap value => ⟨?_, fun nested => ?_⟩, fun script machine position value fuel test named =>
    ⟨fun found answered => ?_, fun unanswered => ?_⟩, fun testable script machine middle evaluator value fuel
      place declares evaluated => ?_⟩
  · rw [answer]
    by_cases testable : word ∈ Heap.testableBases
    · simp [type, testable]
    · simp only [type, testable, false_or, if_false]
      split <;> simp <;> omega
  · rw [answer, if_pos (.inr nested)]
  · refine typeTests_answered test named (DeclaredType.isType_token bare ?_ position) answered fuel
    by_contra unnamed
    rw [answer, if_neg unnamed] at answered
    cases answered
  · exact typeTests_refused test named (DeclaredType.text_ne_empty bare) unanswered fuel
  · rw [variableDeclaration_ok_iff bare testable declares evaluated, answer, if_pos (.inl testable),
      Option.some_inj]

theorem array_of_numbers_tested :
    let heap : Heap := ⟨#[⟨#[.number .one], none⟩]⟩
    let test := Script.ofSource "a is number[]".toList
    let declaration := Script.ofSource "$b: number[] = [1]".toList
    heap.isType? (.array 0) "number[]" = some (heap.conforms (.array 0) ⟨"number", 1⟩) ∧
      typeTests test 2 (.array 0) { Machine.initial with cursor := 1, heap } =
        typeTests test 1 (.boolean true) { Machine.initial with cursor := 3, heap } ∧
      ∃ final, variableDeclaration declaration (evaluator declaration 0 9) 4 .initial = .ok () final := by
  intro heap test declaration
  have bare : IsBareWord "number".toList := .intro (by decide) (List.all_eq_true.mp (by decide))
  obtain ⟨answers, tests, declares⟩ := type_test_agrees_iff bare (by decide) 1
  have begins : DeclaresAt declaration .initial ⟨"number", 1⟩ 1 :=
    { begins := .inr (by decide +kernel)
      named := by decide +kernel
      fresh := by decide +kernel
      colon := by decide +kernel
      typed := ⟨⟨1, 5⟩, by decide +kernel⟩
      equal := by decide +kernel }
  have evaluated : initializer declaration (evaluator declaration 0 9) ⟨"number", 1⟩ 4
      { Machine.initial with cursor := 5 } =
        .ok (.array 0) { Machine.initial with
          cursor := 8, heap := ⟨#[⟨#[.number .one], some ⟨"number", 0⟩⟩]⟩ } := by decide +kernel
  refine ⟨(answers heap (.array 0)).2 (by decide), ?_, ?_⟩
  · exact (tests test { Machine.initial with cursor := 1, heap } ⟨1, 6⟩ (.array 0) 1 (by decide +kernel)
      (by decide +kernel)).1 true (by decide +kernel)
  · exact (declares (by decide) declaration .initial _ _ _ _ _ begins evaluated).mpr (by decide +kernel)

/-- A word that is no tag is let through before brackets, where a declaration refuses it. -/
theorem unknown_word_tested_before_brackets :
    "foo" ∉ Heap.testableBases ∧ Heap.empty.isType? (.number .one) "foo[]" = some false ∧
      (Run.ofScript (Script.ofSource "println(5 is foo[])".toList) 0 30).failure = none ∧
      (Run.ofScript (Script.ofSource "println(5 is foo[])".toList) 0 30).machine.written = "false\n" ∧
      (Run.ofScript (Script.ofSource "x: foo[] = []".toList) 0 30).failure =
        some (.diagnostic ⟨.unsupportedType "foo[]", ⟨1, 4⟩⟩) := by
  decide +kernel

end Exec

end Onepass
