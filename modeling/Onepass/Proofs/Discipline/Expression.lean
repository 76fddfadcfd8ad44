import Onepass.Proofs.Discipline.Moving

/-! # What every execution keeps

A discipline says of each single thing that an execution does to the machine (a move of the cursor, a
new array, a new scope and its removal, a call and its return) that it respects a relation between
the machine before and the machine after. From that it follows, one construct after the other, that
whole statements and expressions respect it, on every outcome.

Two relations go together: only the declaration of a variable may fall outside the first, `steady`,
and then it is still within the second, `growing`.
-/

set_option autoImplicit false

namespace Onepass

/-- The relations that single changes of the machine respect. -/
structure Discipline (steady growing : Machine → Machine → Prop) : Prop extends
    Moving steady where
  weaken : ∀ {first last}, steady first last → growing first last
  growing_trans : ∀ {first middle last},
    growing first middle → growing middle last → growing first last
  observed : ∀ machine trace steps, steady machine { machine with trace, steps }
  wrote : ∀ machine text, steady machine { machine with output := machine.output.push text }
  allocated : ∀ machine items type,
    steady machine { machine with heap := (machine.heap.allocate items type).1 }
  retagged : ∀ machine value type,
    steady machine { machine with heap := machine.heap.retag value type }
  written : ∀ machine address place value,
    steady machine { machine with heap := machine.heap.write address place value }
  assigned : ∀ machine name value,
    steady machine { machine with scopes := (machine.scopes.assign name value).1 }
  declared : ∀ machine name binding,
    growing machine { machine with scopes := (machine.scopes.declare name binding).1 }
  registered : ∀ machine function functions,
    machine.functions.register? function = some functions → steady machine { machine with functions }
  closed : ∀ machine scope final,
    growing { machine with scopes := machine.scopes.push scope } final →
      steady machine (Exec.closeScope final)
  iterated : ∀ machine final,
    steady { machine with loopDepth := machine.loopDepth + 1 } final →
      steady machine { final with loopDepth := final.loopDepth - 1 }
  gave : ∀ machine value, steady machine { machine with returned := value }
  returned : ∀ machine function arguments final,
    growing (Exec.enterCall function arguments machine) final →
      steady machine (Exec.leaveCall machine.cursor machine.loopDepth final)

/-- The parts of a construct respect the relations of a discipline. -/
structure Evaluator.Keeps (steady growing : Machine → Machine → Prop) (evaluator : Evaluator) :
    Prop where
  expression : Exec.Keeps steady evaluator.expression
  statement : Exec.Keeps growing evaluator.statement

namespace Discipline

open Exec (Keeps)

variable {steady growing : Machine → Machine → Prop} (discipline : Discipline steady growing)
variable {α β : Type}

include discipline

/-! ## Sequences and single actions -/

theorem bindGrowing {action : Exec α} {next : α → Exec β} (first : Keeps growing action)
    (rest : ∀ value, Keeps growing (next value)) : Keeps growing (action >>= next) :=
  Keeps.bind discipline.growing_trans first rest

theorem grows {action : Exec α} (keeps : Keeps steady action) : Keeps growing action :=
  keeps.weaken discipline.weaken

variable (script : Script)

/-! ## Expressions -/

theorem retag (value : Value) (type : DeclaredType) : Keeps steady (Exec.retag value type) :=
  fun machine => discipline.retagged machine value type

theorem allocate (items : List Value) (type : Option DeclaredType) :
    Keeps steady (Exec.allocate items type) :=
  fun machine => discipline.allocated machine items.toArray type

theorem checkedArray (element : DeclaredType) {item : Exec Value} (keeps : Keeps steady item)
    (fuel : Nat) : Keeps steady (Exec.checkedArray script element item fuel) := by
  have checked : Keeps steady (Exec.checkedArray.checked script element item) := by
    refine discipline.bind (discipline.current script) fun token => ?_
    refine discipline.bind keeps fun value => ?_
    refine discipline.bind (discipline.conforms value element) fun fits => ?_
    split
    · exact discipline.pure _
    · exact discipline.bind (discipline.describe _) fun _ => discipline.refuse _ _
  refine discipline.bind (discipline.expectSymbol script _) fun _ => ?_
  refine discipline.bind (discipline.separated script _ checked fuel) fun items => ?_
  refine discipline.bind (discipline.expectSymbol script _) fun _ => ?_
  exact discipline.allocate items _

variable {evaluator : Evaluator}

theorem declaredArray (keeps : evaluator.Keeps steady growing) (fuel : Nat) (base : String)
    (dimensions : Nat) :
    Keeps steady (Exec.declaredArray script evaluator fuel base dimensions) := by
  induction dimensions with
  | zero => exact discipline.checkedArray script _ keeps.expression fuel
  | succ dimensions ih =>
      refine discipline.checkedArray script _ ?_ fuel
      refine discipline.bind (discipline.currentKind script) fun found => ?_
      split
      · exact ih
      · exact keeps.expression

theorem freeArray (keeps : evaluator.Keeps steady growing) (fuel : Nat) :
    Keeps steady (Exec.freeArray script evaluator fuel) := by
  refine discipline.bind (discipline.expectSymbol script _) fun _ => ?_
  refine discipline.bind (discipline.separated script _ keeps.expression fuel) fun items => ?_
  refine discipline.bind (discipline.expectSymbol script _) fun _ => ?_
  refine discipline.bind discipline.get fun machine => ?_
  split
  · exact discipline.allocate items _
  · exact discipline.bind (discipline.current script) fun _ => discipline.refuse _ _

theorem primary (keeps : evaluator.Keeps steady growing) {call : Exec Value}
    (callKeeps : Keeps steady call) (fuel : Nat) :
    Keeps steady (Exec.primary script evaluator call fuel) := by
  refine discipline.bind (discipline.current script) fun token => ?_
  split
  · exact discipline.bind (discipline.advance script) fun _ => discipline.pure _
  · exact discipline.bind (discipline.stringLiteral script fuel) fun _ => discipline.pure _
  · exact discipline.bind (discipline.stringLiteral script fuel) fun _ => discipline.pure _
  · refine discipline.bind (discipline.advance script) fun _ => ?_
    split
    · exact discipline.refuse _ _
    · exact discipline.pure _
  · exact discipline.bind (discipline.advance script) fun _ => discipline.pure _
  · exact discipline.bind (discipline.advance script) fun _ => discipline.pure _
  · refine discipline.bind (discipline.advance script) fun _ => ?_
    refine discipline.bind keeps.expression fun value => ?_
    exact discipline.bind (discipline.expectSymbol script _) fun _ => discipline.pure _
  · exact discipline.freeArray script keeps fuel
  · refine discipline.bind (discipline.followingKind script) fun following => ?_
    split
    · exact callKeeps
    · exact discipline.bind (discipline.advance script) fun _ => discipline.valueOf token
  · refine discipline.bind (discipline.advance script) fun _ => ?_
    exact discipline.bind (discipline.expect script _) fun name => discipline.valueOf name
  · exact discipline.refuse _ _

theorem suffixes (keeps : evaluator.Keeps steady growing) (fuel : Nat) (value : Value) :
    Keeps steady (Exec.suffixes script evaluator fuel value) := by
  induction fuel generalizing value with
  | zero => exact discipline.throw _
  | succ fuel ih =>
      unfold Exec.suffixes
      refine discipline.bind (discipline.currentKind script) fun found => ?_
      split
      · refine discipline.bind (discipline.advance script) fun _ => ?_
        refine discipline.bind (discipline.current script) fun token => ?_
        refine discipline.bind keeps.expression fun index => ?_
        refine discipline.bind (discipline.expectSymbol script _) fun _ => ?_
        exact discipline.bind (discipline.elementAt value index token) fun element => ih element
      · refine discipline.bind (discipline.advance script) fun _ => ?_
        refine discipline.bind (discipline.expect script _) fun member => ?_
        split
        · exact discipline.refuse _ _
        · exact discipline.bind (discipline.lengthOf value member) fun length => ih length
      · exact discipline.pure _

theorem unary (keeps : evaluator.Keeps steady growing) {call : Exec Value}
    (callKeeps : Keeps steady call) (fuel : Nat) :
    Keeps steady (Exec.unary script evaluator call fuel) := by
  induction fuel with
  | zero => exact discipline.throw _
  | succ fuel ih =>
      unfold Exec.unary
      refine discipline.bind (discipline.current script) fun token => ?_
      split
      · refine discipline.bind (discipline.advance script) fun _ => ?_
        exact discipline.bind ih fun value => discipline.located _ _
      · refine discipline.bind (discipline.primary script keeps callKeeps fuel) fun value => ?_
        exact discipline.suffixes script keeps fuel value

theorem chain (rank : Rank) {operand : Exec Value} (keeps : Keeps steady operand) (fuel : Nat)
    (left : Value) : Keeps steady (Exec.chain script rank operand fuel left) := by
  induction fuel generalizing left with
  | zero => exact discipline.throw _
  | succ fuel ih =>
      unfold Exec.chain
      refine discipline.bind (discipline.current script) fun token => ?_
      split
      · refine discipline.bind (discipline.advance script) fun _ => ?_
        refine discipline.bind keeps fun right => ?_
        exact discipline.bind (discipline.applyBinary token _ left right) fun value => ih value
      · exact discipline.pure _

theorem ranked (rank : Rank) {operand : Exec Value} (keeps : Keeps steady operand) (fuel : Nat) :
    Keeps steady (Exec.ranked script rank operand fuel) :=
  discipline.bind keeps fun left => discipline.chain script rank keeps fuel left

theorem comparison (keeps : evaluator.Keeps steady growing) {call : Exec Value}
    (callKeeps : Keeps steady call) (fuel : Nat) :
    Keeps steady (Exec.comparison script evaluator call fuel) := by
  have product := discipline.ranked script .product (discipline.unary script keeps callKeeps fuel) fuel
  have sum := discipline.ranked script .sum product fuel
  have tested : Keeps steady (Exec.typeTest script evaluator call fuel) :=
    discipline.bind sum fun value => discipline.typeTests script fuel value
  refine discipline.bind tested fun left => ?_
  refine discipline.bind (discipline.current script) fun token => ?_
  split
  · refine discipline.bind (discipline.advance script) fun _ => ?_
    exact discipline.bind tested fun right => discipline.applyBinary token _ left right
  · exact discipline.pure _

theorem disjunction (keeps : evaluator.Keeps steady growing) {call : Exec Value}
    (callKeeps : Keeps steady call) (fuel : Nat) :
    Keeps steady (Exec.disjunction script evaluator call fuel) :=
  discipline.ranked script .disjunction
    (discipline.ranked script .conjunction (discipline.comparison script keeps callKeeps fuel) fuel)
    fuel

end Discipline

end Onepass
