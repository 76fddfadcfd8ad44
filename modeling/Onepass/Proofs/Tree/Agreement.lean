import Onepass.Proofs.Tree.Written

/-! # Expressions are evaluated as their trees

An expression is evaluated while it is read, by functions that call each other, and no tree of it is ever
built. Still it comes to what the evaluation of its tree comes to, for every tree and whatever
follows: the rendered tree is a written expression, with parentheses where a place asks for them, and so
it is read on its own level.
-/

set_option autoImplicit false

namespace Onepass

/-! ## Rendered trees are written expressions -/

namespace Expr

/-- What the end of the rendered tree takes for a part of itself. -/
def tail : Expr → Tail
  | .named false _ => .name
  | .string .. => .text
  | .unary _ operand => if operand.level < 6 then .closed else operand.tail
  | .binary operator _ right =>
    if right.level < operator.rank.level + 1 then .closed else right.tail
  | _ => .closed

theorem takes_tail (kind : Kind) (tree : Expr) : tree.tail.takes kind = tree.extendedBy kind := by
  induction tree with
  | named marked name => cases marked <;> rfl
  | unary operator operand ih =>
      rw [tail, extendedBy, ← ih]
      by_cases loose : operand.level < 6 <;> simp [loose, Tail.takes]
  | binary operator left right _ ih =>
      rw [tail, extendedBy, ← ih]
      by_cases loose : right.level < operator.rank.level + 1 <;> simp [loose, Tail.takes]
  | _ => rfl

/-- The tree as it is rendered. -/
def phrase (tree : Expr) : Phrase :=
  ⟨tree, tree.tokens, tree.tail⟩

theorem listed_eq (trees : List Expr) : listed trees = Phrase.listed false (trees.map phrase) := by
  induction trees with
  | nil => rfl
  | cons tree trees ih =>
      cases trees with
      | nil => simp [listed, Phrase.listed, phrase]
      | cons next rest =>
          rw [listed, ih]
          rfl

/-- A rendered tree at a place that asks for a level is put in parentheses if it has to be. -/
theorem written_at {tree : Expr} (written : Written tree.level tree.phrase) {level : Nat}
    (within : level ≤ 7) :
    Written level ⟨tree, tree.tokensAt level, if tree.level < level then .closed else tree.tail⟩ := by
  unfold tokensAt grouped
  by_cases loose : tree.level < level
  · simp only [loose, decide_true, if_true]
    exact (Written.grouped (written.loosened tree.level_le (Nat.zero_le _))).loosened (Nat.le_refl 7)
      within
  · simp only [loose, decide_false, if_false, Bool.false_eq_true]
    exact written.loosened tree.level_le (Nat.le_of_not_lt loose)

/-- A tree may be written as it is rendered. -/
theorem written (tree : Expr) : Written tree.level tree.phrase := by
  have all {trees : List Expr} (ih : ∀ tree ∈ trees, Written tree.level tree.phrase) :
      ∀ item ∈ trees.map phrase, Written 0 item := by
    intro item member
    obtain ⟨tree, inside, rfl⟩ := List.mem_map.mp member
    exact (ih tree inside).loosened tree.level_le (Nat.zero_le _)
  have trees (trees : List Expr) : (trees.map phrase).map Phrase.tree = trees := by
    rw [List.map_map]
    exact List.map_id trees
  induction tree with
  | number digits => exact .number digits
  | string first rest => exact .string first rest
  | character text => exact .character text
  | boolean value => exact .boolean value
  | null => exact .null
  | named marked name =>
      have named := Written.named marked name
      cases marked <;> exact named
  | array elements ih =>
      have array := Written.array false (all ih)
      rw [← listed_eq, trees] at array
      exact array
  | index container place ih inner =>
      exact .index (written_at ih (Nat.le_refl 7)) (inner.loosened place.level_le (Nat.zero_le _))
  | length container ih => exact .length (written_at ih (Nat.le_refl 7))
  | call name arguments ih =>
      have call := Written.call name false (all ih)
      rw [← listed_eq, trees] at call
      exact call
  | unary operator operand ih => exact .unary operator (written_at ih (by decide))
  | binary operator left right ihLeft ihRight =>
      have leftWithin : operator.rank.leftLevel ≤ 7 := by cases operator <;> decide
      have rightWithin : operator.rank.level + 1 ≤ 7 := by
        have := operator.rank.level_lt
        omega
      exact .binary operator (written_at ihLeft leftWithin) (written_at ihRight rightWithin)
  | typed test operand type ih => exact .typed test type (written_at ih (by decide))

end Expr

namespace Exec

variable {script : Script} {verbosity : Nat}

/-- Every tree is read on its own level, whatever stands before it. -/
theorem opened (tree : Expr) : Opened script verbosity tree := by
  intro first last shown ends apart
  rw [← tree.takes_tail] at apart
  exact opens_of_written tree.written shown ends apart

/-! ## The agreement -/

/-- An expression that is evaluated while it is read gives what its tree gives. If the tokens of a tree
stand at the cursor and no part of the expression follows them, then reading and evaluating them comes
to the value of the tree with the cursor just behind the tokens, or fails for the reason for which the
evaluation of the tree fails, or comes to no end if that does not; and both leave the same machine but
for the cursor. -/
theorem expression_agrees_with_tree (script : Script) (verbosity : Nat) (tree : Expr) (machine : Machine)
    {last : Nat} (shown : script.Shows machine.cursor last tree.tokens)
    (stops : tree.continuedBy (script.kindAt last) = false) :
    ∃ outcome twin, Settles (expression script verbosity) machine outcome ∧
      Settles (fun fuel => tree.evaluate script verbosity fuel) machine twin ∧
        Option.Rel (Mirrors Eq last) outcome twin := by
  obtain ⟨alone, apart⟩ := Bool.or_eq_false_iff.mp stops
  obtain ⟨outcome, twin, ⟨enough, stable⟩, settles, related⟩ :=
    Opened.expression (opened tree) shown (Kind.joint_eq_none alone) apart machine
  exact ⟨outcome, twin, ⟨enough, fun fuel le => stable fuel fuel le le⟩, settles, related⟩

/-- Two subtractions and a product with a sum in parentheses, compared with a converted length, before a
brace. -/
theorem expression_agrees_with_tree_before_brace :
    let script := Script.ofSource
      "7 - 2 - 3 * (4 + 1) == -[[1]][0].length as number && !false \x7b".toList
    let tree := Expr.binary .and
      (.binary .equal
        (.binary .sub (.binary .sub (.number "7") (.number "2"))
          (.binary .mul (.number "3") (.binary .add (.number "4") (.number "1"))))
        (.typed false
          (.unary .negate (.length (.index (.array [.array [.number "1"]]) (.number "0"))))
          ⟨.keyword .numberWord, "number", rfl⟩))
      (.unary .invert (.boolean false))
    script.Shows 0 28 tree.tokens ∧ tree.continuedBy (script.kindAt 28) = false ∧
      ∃ outcome twin, Settles (expression script 0) .initial outcome ∧
        Settles (fun fuel => tree.evaluate script 0 fuel) .initial twin ∧
          Option.Rel (Mirrors Eq 28) outcome twin := by
  intro script tree
  have shown : script.Shows 0 28 tree.tokens := by decide +kernel
  have stops : tree.continuedBy (script.kindAt 28) = false := by decide +kernel
  exact ⟨shown, stops, expression_agrees_with_tree script 0 tree .initial shown stops⟩

end Exec

end Onepass
