import Onepass.Proofs.Discipline.Standing
import Onepass.Proofs.Lockstep.Reading
import Onepass.Proofs.Sparing.Expression
import Onepass.Proofs.Tree.Basic

/-! # Trees without calls

Only a call executes statements. So the value of a tree without calls depends on what names stand for and
on the arrays alone, and evaluating it changes nothing, except that array literals make new arrays.
-/

set_option autoImplicit false

namespace Onepass

/-- There is no call in the tree, and no array literal either unless these are allowed. -/
inductive Expr.CallFree (arrays : Prop) : Expr → Prop
  | number (digits : String) : CallFree arrays (.number digits)
  | string (first : Piece) (rest : List Piece) : CallFree arrays (.string first rest)
  | character (text : String) : CallFree arrays (.character text)
  | boolean (value : Bool) : CallFree arrays (.boolean value)
  | null : CallFree arrays .null
  | named (marked : Bool) (name : String) : CallFree arrays (.named marked name)
  | array {elements : List Expr} (allowed : arrays) (free : ∀ element ∈ elements, CallFree arrays element) :
      CallFree arrays (.array elements)
  | index {container place : Expr} (free : CallFree arrays container) (inside : CallFree arrays place) :
      CallFree arrays (.index container place)
  | length {container : Expr} (free : CallFree arrays container) : CallFree arrays (.length container)
  | unary (operator : UnaryOperator) {operand : Expr} (free : CallFree arrays operand) :
      CallFree arrays (.unary operator operand)
  | binary (operator : BinaryOperator) {left right : Expr} (freeLeft : CallFree arrays left)
      (freeRight : CallFree arrays right) : CallFree arrays (.binary operator left right)
  | typed (test : Bool) {operand : Expr} (type : TypeName) (free : CallFree arrays operand) :
      CallFree arrays (.typed test operand type)

namespace Expr

variable {script : Script} {verbosity fuel : Nat} {arrays : Prop}

/-! ## What evaluation keeps -/

section

variable {relation : Machine → Machine → Prop} (standing : Standing relation)

include standing

theorem keeps_all {trees : List Expr}
    (keeps : ∀ tree ∈ trees, Exec.Keeps relation (tree.evaluate script verbosity fuel)) :
    Exec.Keeps relation (evaluateAll script verbosity fuel trees) := by
  induction trees with
  | nil => exact standing.pure _
  | cons tree trees ih =>
      unfold evaluateAll
      refine standing.bind (keeps tree List.mem_cons_self) fun value => ?_
      refine standing.bind (ih fun tree member => keeps tree (List.mem_cons_of_mem _ member)) fun _ => ?_
      exact standing.pure _

theorem keeps_join (pieces : List Piece) : Exec.Keeps relation (Piece.join pieces) := by
  induction pieces with
  | nil => exact standing.pure _
  | cons piece pieces ih =>
      unfold Piece.join
      refine standing.bind ?_ fun _ => standing.bind ih fun _ => standing.pure _
      cases piece with
      | text content => exact standing.pure _
      | reference name => exact standing.bind (standing.valueOf _) fun value => standing.printed value

/-- The evaluation of a tree without calls respects what holds as long as nothing changes, if making a new
array does. -/
theorem CallFree.keeps {tree : Expr} (free : tree.CallFree arrays)
    (allocates : arrays → ∀ items type, Exec.Keeps relation (Exec.allocate items type)) :
    Exec.Keeps relation (tree.evaluate script verbosity fuel) := by
  induction free with
  | number | boolean | null =>
      unfold evaluate
      exact standing.pure _
  | string first rest =>
      unfold evaluate
      exact standing.bind (keeps_join standing _) fun _ => standing.pure _
  | character text =>
      unfold evaluate
      cases text.toList with
      | nil => exact standing.refuse _ _
      | cons char _ => exact standing.pure _
  | named marked name =>
      unfold evaluate
      exact standing.valueOf _
  | array allowed _ ih =>
      unfold evaluate
      refine standing.bind (keeps_all standing ih) fun items => ?_
      refine standing.bind standing.get fun machine => ?_
      split
      · exact allocates allowed _ _
      · exact standing.refuse _ _
  | index _ _ ih inner =>
      unfold evaluate
      exact standing.bind ih fun _ => standing.bind inner fun _ => standing.elementAt _ _ _
  | length _ ih =>
      unfold evaluate
      exact standing.bind ih fun _ => standing.lengthOf _ _
  | unary operator _ ih =>
      unfold evaluate
      exact standing.bind ih fun _ => standing.located _ _
  | binary operator _ _ ihLeft ihRight =>
      unfold evaluate
      exact standing.bind ihLeft fun _ => standing.bind ihRight fun _ => standing.applyBinary _ _ _ _
  | typed test type _ ih =>
      unfold evaluate
      exact standing.bind ih fun _ => standing.testOrConvert _ _ _

end

/-- Without calls and array literals, evaluation changes nothing. -/
theorem CallFree.unchanging {tree : Expr} (free : tree.CallFree False) :
    Exec.Keeps (fun first last => last = first) (tree.evaluate script verbosity fuel) :=
  free.keeps unchanged False.elim

/-- Without calls, evaluation makes new arrays at most. -/
theorem CallFree.sparing {tree : Expr} (free : tree.CallFree arrays) :
    Exec.Keeps Machine.Spared (tree.evaluate script verbosity fuel) := by
  refine free.keeps ⟨.refl, .trans⟩ fun _ items type machine => ?_
  refine ⟨rfl, rfl, rfl, rfl, rfl, rfl, ?_⟩
  change machine.heap.cells.toList <+: (machine.heap.allocate items.toArray type).1.cells.toList
  simp [Heap.allocate]

/-! ## What evaluation depends on -/

section

variable {coupling : Coupling} {more : Nat}

theorem pairs_all {trees : List Expr} (pairs : ∀ tree ∈ trees,
      coupling.Pairs Eq (tree.evaluate script verbosity fuel) (tree.evaluate script verbosity more)) :
    coupling.Pairs Eq (evaluateAll script verbosity fuel trees)
      (evaluateAll script verbosity more trees) := by
  induction trees with
  | nil => exact .same []
  | cons tree trees ih =>
      unfold evaluateAll
      apply (pairs tree List.mem_cons_self).then
      intro value
      apply (ih fun tree member => pairs tree (List.mem_cons_of_mem _ member)).then
      intro _
      exact .same _

variable (stores : coupling.Stores) (start : coupling.positions .start .start)

include stores start

theorem pairs_join (pieces : List Piece) :
    coupling.Pairs Eq (Piece.join pieces) (Piece.join pieces) := by
  induction pieces with
  | nil => exact .same ""
  | cons piece pieces ih =>
      unfold Piece.join
      have evaluates : coupling.Pairs Eq piece.evaluate piece.evaluate := by
        cases piece with
        | text content => exact .same content
        | reference name => exact (stores.valueOf ⟨rfl, rfl, start⟩).then fun value => stores.printed value
      apply evaluates.then
      intro text
      exact ih.then fun _ => .same _

/-- The value of a tree without calls depends on what names stand for and on the arrays alone. -/
theorem CallFree.pairs {tree : Expr} (free : tree.CallFree arrays) :
    coupling.Pairs Eq (tree.evaluate script verbosity fuel) (tree.evaluate script verbosity more) := by
  induction free with
  | number | boolean | null =>
      unfold evaluate
      exact .same _
  | string first rest =>
      unfold evaluate
      exact (pairs_join stores start _).then fun _ => .same _
  | character text =>
      unfold evaluate
      cases text.toList with
      | nil => exact .refuse _ start
      | cons char _ => exact .same _
  | named marked name =>
      unfold evaluate
      exact stores.valueOf ⟨rfl, rfl, start⟩
  | array _ _ ih =>
      unfold evaluate
      apply (pairs_all ih).then
      intro items
      apply Coupling.Pairs.get.bind
      intro machine other related
      rw [(stores.same related).heap]
      split
      · exact stores.allocate items _
      · exact .refuse _ start
  | index _ _ ih inner =>
      unfold evaluate
      exact ih.then fun container => inner.then fun place => stores.elementAt start container place
  | length _ ih =>
      unfold evaluate
      exact ih.then fun container => stores.lengthOf start container
  | unary operator _ ih =>
      unfold evaluate
      exact ih.then fun value => .located start _
  | binary operator _ _ ihLeft ihRight =>
      unfold evaluate
      exact ihLeft.then fun left => ihRight.then fun right => stores.applyBinary start operator left right
  | typed test type _ ih =>
      unfold evaluate
      exact ih.then fun value => stores.testOrConvert ⟨rfl, rfl, start⟩ test value

end

end Expr

end Onepass
