import Onepass.Proofs.Lexing.Piece
import Onepass.Proofs.Tree.Agreement
import Onepass.Proofs.Typing.Soundness
import Onepass.Proofs.Value.Acyclic

/-! # Interpolation is concatenation

A string literal with references joins the texts of its pieces while it is read, and the sum of the same
pieces joins them operator by operator. Both look up the names in the same order and write the values in
the same way, so they come to the same text, or fail at the same name.
-/

set_option autoImplicit false

namespace Onepass

open Exec (bind_of_ok bind_of_error get_bind_eq Settles expression Mirrors)

/-! ## Texts of values -/

namespace Exec

variable {machine : Machine} {value : Value}

theorem printed_of_text {text : String} (written : machine.heap.text? .plain value = some text) :
    printed value machine = .ok text machine := by
  rw [printed, get_bind_eq, written]
  rfl

theorem printed_string (text : String) : printed (.string text) = pure text := by
  funext machine
  exact printed_of_text (by simp [Heap.text?, Heap.textWithin, ValueStyle.plain])

/-- A text plus a value is the text with what would be printed for the value behind it. -/
theorem applyBinary_text (token : Token) (text : String) (value : Value) :
    applyBinary token .add (.string text) value = do
      return .string (text ++ (← printed value)) := by
  funext machine
  have front : machine.heap.textOf .plain (.string text) = .ok text := by
    simp [Heap.textOf, Heap.text?, Heap.textWithin, ValueStyle.plain]
  have joined : machine.heap.binary .add (.string text) value =
      machine.heap.concatenate (.string text) value := rfl
  rw [applyBinary, get_bind_eq, joined, Heap.concatenate, front]
  cases written : machine.heap.text? .plain value with
  | some behind =>
      rw [bind_of_ok (printed_of_text written), Heap.textOf, written]
      rfl
  | none =>
      have endless : printed value machine = .error .endless machine := by
        rw [printed, get_bind_eq, written]
        rfl
      rw [bind_of_error endless, Heap.textOf, written]
      rfl

end Exec

namespace Piece

variable {script : Script} {verbosity fuel : Nat} {machine : Machine} {pieces : List Piece}

/-! ## Both forms join the pieces -/

theorem join_append (front rest : List Piece) :
    join (front ++ rest) = do return (← join front) ++ (← join rest) := by
  induction front with
  | nil => simp only [List.nil_append, join, pure_bind, String.empty_append, bind_pure]
  | cons piece front ih =>
      simp only [List.cons_append, join, ih, bind_assoc, pure_bind, String.append_assoc]

theorem join_chars (chars : List Char) :
    join (chars.map fun char => .text (String.singleton char)) = return String.ofList chars := by
  induction chars with
  | nil => rfl
  | cons char chars ih =>
      rw [List.map_cons, join, ih, String.ofList_cons]
      rfl

/-- The text of pieces is that of their letters. -/
theorem join_letters (pieces : List Piece) : join (pieces.flatMap letters) = join pieces := by
  induction pieces with
  | nil => rfl
  | cons piece pieces ih =>
      rw [List.flatMap_cons, join_append, ih, join]
      cases piece with
      | text content => rw [letters, join_chars, String.ofList_toList, pure_bind, evaluate, pure_bind]
      | reference name =>
          simp only [letters, join, bind_assoc, pure_bind, String.append_empty]

/-- A piece comes to the text that is printed for the value of its operand. -/
theorem printed_operand (script : Script) (verbosity fuel : Nat) (piece : Piece) :
    (piece.operand.evaluate script verbosity fuel >>= Exec.printed) = piece.evaluate := by
  cases piece with
  | text content =>
      rw [operand, Expr.evaluate, join, join, evaluate]
      simp only [pure_bind, String.append_empty, Exec.printed_string]
  | reference name => rfl

/-- A sum that begins with a text puts the texts of the pieces behind it. -/
theorem evaluate_added {front : Expr} {text : Exec String}
    (base : front.evaluate script verbosity fuel = do return .string (← text)) (pieces : List Piece) :
    (added front pieces).evaluate script verbosity fuel = do
      return .string ((← text) ++ (← join pieces)) := by
  induction pieces generalizing front text with
  | nil => simp only [added, List.foldl_nil, base, join, pure_bind, String.append_empty]
  | cons piece pieces ih =>
      have step : (Expr.binary .add front piece.operand).evaluate script verbosity fuel = do
          return .string (← (do return (← text) ++ (← piece.evaluate))) := by
        rw [Expr.evaluate, base, ← printed_operand script verbosity fuel]
        simp only [bind_assoc, pure_bind, Exec.applyBinary_text]
      refine (ih step).trans ?_
      simp only [join, bind_assoc, pure_bind, String.append_assoc]

/-- The sum of the pieces comes to the text that they make. -/
theorem evaluate_sum (script : Script) (verbosity fuel : Nat) (pieces : List Piece) :
    (added (.string (.text "") []) pieces).evaluate script verbosity fuel = do
      return .string (← join pieces) := by
  have empty : (Expr.string (.text "") []).evaluate script verbosity fuel = do
      return .string (← (pure "" : Exec String)) := rfl
  refine (evaluate_added empty pieces).trans ?_
  simp only [pure_bind, String.empty_append]

/-- The one literal comes to the same text, however it divides the pieces. -/
theorem evaluate_literal {first : Piece} {rest : List Piece}
    (same : (first :: rest).flatMap letters = pieces.flatMap letters) (script : Script)
    (verbosity fuel : Nat) :
    (Expr.string first rest).evaluate script verbosity fuel = do return .string (← join pieces) := by
  rw [Expr.evaluate, ← join_letters (first :: rest), same, join_letters]

/-! ## What the pieces come to -/

/-- The text that the piece stands for. A name that is not visible stands for none. -/
def shown? (machine : Machine) : Piece → Option String
  | .text content => some content
  | .reference name => do
    let binding ← machine.scopes.lookup? name
    machine.heap.text? .plain binding.value

theorem evaluate_of_shown {piece : Piece} {text : String} (shown : piece.shown? machine = some text) :
    piece.evaluate machine = .ok text machine := by
  cases piece with
  | text content =>
      cases shown
      rfl
  | reference name =>
      obtain ⟨binding, visible, written⟩ := Option.bind_eq_some_iff.mp shown
      have found : Exec.valueOf (.rendered .reference (some name)) machine =
          .ok binding.value machine := by
        have bound : Exec.bindingOf (.rendered .reference (some name)) machine =
            .ok binding machine := by
          rw [Exec.bindingOf, get_bind_eq]
          simp only [Token.rendered, Token.word, Option.getD_some, visible]
          rfl
        rw [Exec.valueOf, bind_of_ok bound]
        rfl
      rw [evaluate, bind_of_ok found, Exec.printed_of_text written]

theorem evaluate_of_missing {name : String} (missing : machine.scopes.lookup? name = none) :
    (reference name).evaluate machine =
      .error (.diagnostic ⟨.undefinedVariable name, .start⟩) machine := by
  have unbound : Exec.bindingOf (.rendered .reference (some name)) machine =
      .error (.diagnostic ⟨.undefinedVariable name, .start⟩) machine := by
    rw [Exec.bindingOf, get_bind_eq]
    simp only [Token.rendered, Token.word, Option.getD_some, missing]
    rfl
  have failed : Exec.valueOf (.rendered .reference (some name)) machine =
      .error (.diagnostic ⟨.undefinedVariable name, .start⟩) machine := by
    rw [Exec.valueOf, bind_of_error unbound]
  rw [evaluate, bind_of_error failed]

/-- The name is not visible, and it is the first one among the pieces that is not. -/
structure FirstMissing (machine : Machine) (pieces : List Piece) (missing : String) : Prop where
  undefined : machine.scopes.lookup? missing = none
  first : ∃ before after, pieces = before ++ .reference missing :: after ∧
    ∀ name, .reference name ∈ before → machine.scopes.lookup? name ≠ none

/-- The pieces come to their texts one after the other, or to a failure at the first name that is not
visible. -/
theorem join_cases (each : ∀ piece ∈ pieces, (∃ text, piece.shown? machine = some text) ∨
      ∃ name, piece = .reference name ∧ machine.scopes.lookup? name = none) :
    (∃ texts, pieces.map (shown? machine) = texts.map some ∧
      join pieces machine = .ok (String.join texts) machine) ∨
    ∃ missing, FirstMissing machine pieces missing ∧
      join pieces machine = .error (.diagnostic ⟨.undefinedVariable missing, .start⟩) machine := by
  induction pieces with
  | nil => exact .inl ⟨[], rfl, rfl⟩
  | cons piece pieces ih =>
      rcases each piece List.mem_cons_self with ⟨text, shown⟩ | ⟨name, rfl, missing⟩
      · have evaluated := evaluate_of_shown shown
        rcases ih fun other member => each other (List.mem_cons_of_mem _ member) with
          ⟨texts, others, joined⟩ | ⟨missing, ⟨undefined, before, after, rfl, visible⟩, failed⟩
        · refine .inl ⟨text :: texts, by rw [List.map_cons, shown, others]; rfl, ?_⟩
          rw [join, bind_of_ok evaluated, bind_of_ok joined, String.join_cons]
          rfl
        · refine .inr ⟨missing, ⟨undefined, piece :: before, after, rfl, ?_⟩, ?_⟩
          · intro name member absent
            rcases List.mem_cons.mp member with rfl | member
            · simp [shown?, absent] at shown
            · exact visible name member absent
          · rw [join, bind_of_ok evaluated, bind_of_error failed]
      · refine .inr ⟨name, ⟨missing, [], pieces, rfl, fun _ inside => absurd inside List.not_mem_nil⟩, ?_⟩
        rw [join, bind_of_error (evaluate_of_missing missing)]

/-- If the visible variables hold values that can be written, every piece has a text or is a name that is
not visible. -/
theorem shown_or_missing (grounded : machine.Grounded)
    (acyclic : ∀ name binding, .reference name ∈ pieces → machine.scopes.lookup? name = some binding →
      machine.heap.Acyclic binding.value) :
    ∀ piece ∈ pieces, (∃ text, piece.shown? machine = some text) ∨
      ∃ name, piece = .reference name ∧ machine.scopes.lookup? name = none := by
  intro piece member
  cases piece with
  | text content => exact .inl ⟨content, rfl⟩
  | reference name =>
      cases visible : machine.scopes.lookup? name with
      | none => exact .inr ⟨name, rfl, visible⟩
      | some binding =>
          have within := grounded.bindings binding (Scopes.has_of_lookup visible)
          obtain ⟨text, written⟩ :=
            (acyclic name binding member visible).exists_text within grounded.heap .plain
          exact .inl ⟨text, by simp [shown?, visible, written]⟩

end Piece

/-! ## Reading them -/

theorem Expr.extendedBy_endOfInput (tree : Expr) : tree.extendedBy .endOfInput = false := by
  induction tree with
  | named marked name => cases marked <;> rfl
  | unary operator operand ih => rw [extendedBy, ih, Bool.and_false]
  | binary operator left right _ ih => rw [extendedBy, ih, Bool.and_false]
  | _ => rfl

namespace Exec

variable {script : Script} {verbosity : Nat} {machine : Machine}

/-- A script that is nothing but an expression comes to what its tree comes to. -/
theorem settles_of_tree {tree : Expr} (begins : machine.cursor = 0)
    (shows : script.Shows 0 script.size tree.tokens) {twin : Outcome Value}
    (ends : completed twin = some twin)
    (evaluates : ∀ fuel, tree.evaluate script verbosity fuel machine = twin) :
    ∃ outcome, Settles (expression script verbosity) machine (some outcome) ∧
      Mirrors Eq script.size outcome twin := by
  have alone : (script.kindAt script.size).continuesExpression = false := by
    rw [script.kindAt_size]
    rfl
  have apart : tree.extendedBy (script.kindAt script.size) = false := by
    rw [script.kindAt_size]
    exact tree.extendedBy_endOfInput
  obtain ⟨outcome, result, ⟨enough, stable⟩, evaluated, related⟩ :=
    Opened.expression (opened tree) (begins ▸ shows) (Kind.joint_eq_none alone) apart machine
  have known : Settles (fun fuel => tree.evaluate script verbosity fuel) machine (some twin) :=
    ⟨0, fun fuel _ => (congrArg completed (evaluates fuel)).trans ends⟩
  obtain rfl := evaluated.unique known
  cases related with
  | some mirrors => exact ⟨_, ⟨enough, fun fuel le => stable fuel fuel le le⟩, mirrors⟩

variable {tree : Expr} {pieces : List Piece}

/-- The script comes to the text of the pieces, if its tree does. -/
theorem settles_text (begins : machine.cursor = 0)
    (shows : script.Shows 0 script.size tree.tokens)
    (evaluates : ∀ fuel, tree.evaluate script verbosity fuel = do return .string (← Piece.join pieces))
    {text : String} (joined : Piece.join pieces machine = .ok text machine) :
    Settles (expression script verbosity) machine
      (some (.ok (.string text) { machine with cursor := script.size })) := by
  have twin (fuel : Nat) : tree.evaluate script verbosity fuel machine = .ok (.string text) machine := by
    rw [evaluates, bind_of_ok joined]
    rfl
  obtain ⟨outcome, settles, mirrors⟩ := settles_of_tree begins shows rfl twin
  cases mirrors with
  | succeeded same => exact same ▸ settles

/-- The script fails for the reason for which its tree fails. -/
theorem settles_missing (begins : machine.cursor = 0)
    (shows : script.Shows 0 script.size tree.tokens)
    (evaluates : ∀ fuel, tree.evaluate script verbosity fuel = do return .string (← Piece.join pieces))
    {missing : String} (failed : Piece.join pieces machine =
      .error (.diagnostic ⟨.undefinedVariable missing, .start⟩) machine) :
    ∃ position cursor, Settles (expression script verbosity) machine
      (some (.error (.diagnostic ⟨.undefinedVariable missing, position⟩) { machine with cursor })) := by
  have twin (fuel : Nat) : tree.evaluate script verbosity fuel machine =
      .error (.diagnostic ⟨.undefinedVariable missing, .start⟩) machine := by
    rw [evaluates, bind_of_error failed]
  obtain ⟨outcome, settles, mirrors⟩ := settles_of_tree begins shows rfl twin
  cases mirrors with
  | failed alike _ cursor =>
      cases alike with
      | diagnostic => exact ⟨_, cursor, settles⟩

/-- Interpolation is concatenation. A string literal in which texts and names are put together, and the sum
of an empty text, each text in a literal of its own and each name, come to the same text if all the names
are visible: that of the texts and of the values of the variables, one after the other. If not, both fail
because of the first name that is not visible. Nothing but the cursor is changed. The names are
identifiers, and the values of the variables are acyclic. Like every machine that an execution comes to,
the machine refers to no array that does not exist. -/
theorem interpolation_is_concatenation (verbosity : Nat) (machine : Machine)
    (grounded : machine.Grounded) {pieces : List Piece} (named : Piece.Named pieces)
    (acyclic : ∀ name binding, .reference name ∈ pieces → machine.scopes.lookup? name = some binding →
      machine.heap.Acyclic binding.value) :
    let literal := Script.ofSource (Piece.literal pieces)
    let sum := Script.ofSource (Piece.sum pieces)
    ((∀ name, .reference name ∈ pieces → machine.scopes.lookup? name ≠ none) →
      ∃ texts, pieces.map (Piece.shown? machine) = texts.map some ∧
        Settles (expression literal verbosity) { machine with cursor := 0 }
          (some (.ok (.string (String.join texts)) { machine with cursor := literal.size })) ∧
        Settles (expression sum verbosity) { machine with cursor := 0 }
          (some (.ok (.string (String.join texts)) { machine with cursor := sum.size }))) ∧
    (∀ name, .reference name ∈ pieces → machine.scopes.lookup? name = none →
      ∃ missing, Piece.FirstMissing machine pieces missing ∧
        (∃ position cursor, Settles (expression literal verbosity) { machine with cursor := 0 }
          (some (.error (.diagnostic ⟨.undefinedVariable missing, position⟩) { machine with cursor }))) ∧
        ∃ position cursor, Settles (expression sum verbosity) { machine with cursor := 0 }
          (some (.error (.diagnostic ⟨.undefinedVariable missing, position⟩)
            { machine with cursor }))) := by
  intro literal sum
  obtain ⟨first, rest, same, shows⟩ := Piece.shows_literal named
  have showsSum := Piece.shows_sum named
  have evaluates := Piece.evaluate_literal same literal verbosity
  have evaluatesSum (fuel : Nat) := Piece.evaluate_sum sum verbosity fuel pieces
  have start : Machine.Grounded { machine with cursor := 0 } := ⟨grounded.bindings, grounded.heap⟩
  rcases Piece.join_cases (Piece.shown_or_missing start acyclic) with
    ⟨texts, shown, joined⟩ | ⟨missing, ⟨undefined, before, after, split, visible⟩, failed⟩
  · refine ⟨fun _ => ⟨texts, shown, settles_text rfl shows evaluates joined,
      settles_text rfl showsSum evaluatesSum joined⟩, fun name member undefined => ?_⟩
    obtain ⟨text, -, known⟩ : ∃ text ∈ texts, some text = Piece.shown? machine (.reference name) := by
      have mapped : Piece.shown? machine (.reference name) ∈ texts.map some :=
        shown ▸ List.mem_map_of_mem member
      exact List.mem_map.mp mapped
    simp [Piece.shown?, undefined] at known
  · refine ⟨fun all => absurd undefined (all missing (by simp [split])), fun _ _ _ =>
      ⟨missing, ⟨undefined, before, after, split, visible⟩, ?_, ?_⟩⟩
    · exact settles_missing rfl shows evaluates failed
    · exact settles_missing rfl showsSum evaluatesSum failed

/-- An array between marked characters and texts that stand side by side, once visible and once not. -/
theorem interpolation_is_concatenation_of_array :
    let pieces : List Piece := [.text "$\"", .reference "x", .text "", .text "\\n", .reference "x"]
    let declaration := Script.ofSource "x: number[] = [1, 20]".toList
    let machine := finalOf (program declaration (evaluator declaration 0 9) 9 .initial)
    let literal := Script.ofSource (Piece.literal pieces)
    let sum := Script.ofSource (Piece.sum pieces)
    String.ofList (Piece.literal pieces) = "\"\\$\\\"$\x7bx\x7d\\\\n$\x7bx\x7d\"" ∧
      String.ofList (Piece.sum pieces) = "\"\" + \"\\$\\\"\" + x + \"\" + \"\\\\n\" + x" ∧
      (∃ final, Settles (expression literal 0) { machine with cursor := 0 }
        (some (.ok (.string "$\"[1, 20]\\n[1, 20]") final))) ∧
      (∃ final, Settles (expression sum 0) { machine with cursor := 0 }
        (some (.ok (.string "$\"[1, 20]\\n[1, 20]") final))) ∧
      ∃ position cursor, Settles (expression sum 0) .initial
        (some (.error (.diagnostic ⟨.undefinedVariable "x", position⟩)
          { Machine.initial with cursor })) := by
  intro pieces declaration machine literal sum
  have only {name : String} (member : .reference name ∈ pieces) : name = "x" := by
    simpa [pieces] using member
  have named : Piece.Named pieces := fun name member => by
    rw [only member]
    exact ⟨.intro (by decide) (List.all_eq_true.mp (by decide)), by decide +kernel⟩
  have ran : program declaration (evaluator declaration 0 9) 9 .initial = .ok () machine := by
    decide +kernel
  obtain ⟨visible, elements, texts⟩ :
      machine.scopes.lookup? "x" = some ⟨.array 0, some ⟨"number", 1⟩, false⟩ ∧
        machine.heap.elements (.array 0) = [.number .one, .number ⟨false, 20, 0⟩] ∧
          pieces.map (Piece.shown? machine) =
            ["$\"", "[1, 20]", "", "\\n", "[1, 20]"].map some := by decide +kernel
  have acyclic : machine.heap.Acyclic (.array 0) := by
    refine Heap.acyclic_of_elements fun element holds => Heap.acyclic_of_tag ?_
    rw [elements] at holds
    rcases List.mem_pair.mp holds with rfl | rfl <;> decide
  obtain ⟨joins, -⟩ := interpolation_is_concatenation 0 machine (grounded_at_end ran) named
    fun name binding member found => by
      rw [only member, visible] at found
      exact Option.some.inj found ▸ acyclic
  obtain ⟨found, shown, literally, added⟩ := joins fun name member => by simp [only member, visible]
  obtain rfl := List.map_injective_iff.mpr (Option.some_injective String) (shown.symm.trans texts)
  have empty : Machine.initial.Sound True := .initial
  obtain ⟨missing, ⟨-, before, after, split, -⟩, -, fails⟩ :=
    (interpolation_is_concatenation 0 .initial empty.grounded named fun _ _ _ => nofun).2 "x"
      (by simp [pieces]) rfl
  obtain rfl := only (split ▸ List.mem_append_right before List.mem_cons_self)
  exact ⟨by decide +kernel, by decide +kernel, ⟨_, literally⟩, ⟨_, added⟩, fails⟩

end Exec

end Onepass
