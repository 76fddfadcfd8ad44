import Onepass.Proofs.Control
import Onepass.Proofs.Typing.Store

/-! # Following a sound execution

Two actions are compared of which the first may give up with an alarm. Unless it does, both have the
same outcome, and if the machine was sound before, it is sound after a success.
-/

set_option autoImplicit false

namespace Onepass

/-- The scopes, the heap and the value that was returned last are the same. -/
structure Machine.SameStore (first last : Machine) : Prop where
  scopes : last.scopes = first.scopes
  heap : last.heap = first.heap
  returned : last.returned = first.returned

/-- Moving the cursor does not change the store. -/
theorem storeMoving : Moving Machine.SameStore where
  refl _ := ⟨rfl, rfl, rfl⟩
  trans start rest :=
    ⟨rest.scopes.trans start.scopes, rest.heap.trans start.heap, rest.returned.trans start.returned⟩
  moved _ _ := ⟨rfl, rfl, rfl⟩

namespace Exec

variable {α β : Type} {typing : Prop} {alarm : Failure} {machine : Machine}

/-- The first action fails with the alarm, or both actions have the same outcome, and a success meets
the condition. -/
def Follows (alarm : Failure) (left right : Exec α) (condition : α → Machine → Prop)
    (machine : Machine) : Prop :=
  (∃ final, left machine = .error alarm final) ∨
    (right machine = left machine ∧
      ∀ result final, left machine = .ok result final → condition result final)

namespace Follows

theorem same {action : Exec α} {condition : α → Machine → Prop}
    (met : ∀ result final, action machine = .ok result final → condition result final) :
    Follows alarm action action condition machine :=
  .inr ⟨rfl, met⟩

theorem weaken {left right : Exec α} {condition weaker : α → Machine → Prop}
    (follows : Follows alarm left right condition machine)
    (implied : ∀ result final, left machine = .ok result final → condition result final →
      weaker result final) : Follows alarm left right weaker machine :=
  follows.imp_right fun ⟨agree, met⟩ =>
    ⟨agree, fun result final ran => implied result final ran (met result final ran)⟩

theorem bind {left right : Exec α} {next other : α → Exec β} {between : α → Machine → Prop}
    {condition : β → Machine → Prop} (first : Follows alarm left right between machine)
    (rest : ∀ value middle, left machine = .ok value middle → between value middle →
      Follows alarm (next value) (other value) condition middle) :
    Follows alarm (left >>= next) (right >>= other) condition machine := by
  rcases first with ⟨final, alarmed⟩ | ⟨agree, met⟩
  · exact .inl ⟨final, bind_of_error alarmed next⟩
  · cases ran : left machine with
    | error failure middle =>
        refine .inr ⟨?_, fun result final succeeded => ?_⟩
        · rw [bind_of_error ran, bind_of_error (agree.trans ran)]
        · rw [bind_of_error ran] at succeeded
          cases succeeded
    | ok value middle =>
        unfold Follows
        rw [bind_of_ok ran, bind_of_ok (agree.trans ran)]
        exact rest value middle ran (met value middle ran)

theorem ensuring {left right : Exec α} {condition tidied : α → Machine → Prop}
    (tidy : Machine → Machine) (follows : Follows alarm left right condition machine)
    (implied : ∀ result final, condition result final → tidied result (tidy final)) :
    Follows alarm (ensuring tidy left) (Exec.ensuring tidy right) tidied machine := by
  rcases follows with ⟨final, alarmed⟩ | ⟨agree, met⟩
  · exact .inl ⟨tidy final, by simp [Exec.ensuring, alarmed]⟩
  · refine .inr ⟨by simp [Exec.ensuring, agree], fun result final succeeded => ?_⟩
    obtain ⟨middle, ran, rfl⟩ := ensuring_ok succeeded
    exact implied result middle (met result middle ran)

end Follows

/-- The second action follows the first from a sound machine to a sound machine, and the result is
good in the heap that is there then. -/
def Safe (typing : Prop) (alarm : Failure) (left right : Exec α) (good : α → Heap → Prop)
    (machine : Machine) : Prop :=
  machine.Sound typing → Follows alarm left right (fun result final =>
    final.Sound typing ∧ machine.heap.Grown final.heap ∧ good result final.heap) machine

/-- Nothing is asked of the result. -/
def anything (_ : α) (_ : Heap) : Prop :=
  True

namespace Safe

variable {left right action : Exec α} {next other : α → Exec β}
variable {good : α → Heap → Prop} {fine : β → Heap → Prop}

theorem bind (first : Safe typing alarm left right good machine)
    (rest : ∀ value middle, left machine = .ok value middle → machine.heap.Grown middle.heap →
      good value middle.heap → Safe typing alarm (next value) (other value) fine middle) :
    Safe typing alarm (left >>= next) (right >>= other) fine machine := by
  intro sound
  refine (first sound).bind fun value middle ran ⟨kept, grown, known⟩ => ?_
  refine (rest value middle ran grown known kept).weaken fun result final _ ⟨done, more, last⟩ => ?_
  exact ⟨done, grown.trans more, last⟩

/-- An action that leaves the store alone. -/
theorem known (keeps : Keeps Machine.SameStore action)
    (met : ∀ result final, machine.Sound typing → action machine = .ok result final →
      good result machine.heap) : Safe typing alarm action action good machine := by
  intro sound
  refine .same fun result final ran => ?_
  have same := keeps.ok ran
  refine ⟨sound.of_eq same.scopes same.heap same.returned, ?_, ?_⟩
  · rw [same.heap]
    exact .refl _
  · rw [same.heap]
    exact met result final sound ran

theorem idle (keeps : Keeps Machine.SameStore action) : Safe typing alarm action action anything machine :=
  known keeps fun _ _ _ _ => trivial

theorem pure {value : α} (met : machine.Sound typing → good value machine.heap) :
    Safe typing alarm (Pure.pure value : Exec α) (Pure.pure value) good machine := by
  refine known (storeMoving.pure value) fun result final sound ran => ?_
  obtain ⟨rfl, rfl⟩ := pure_ok ran
  exact met sound

theorem throw (failure : Failure) :
    Safe typing alarm (MonadExcept.throw failure : Exec α) (MonadExcept.throw failure) good machine :=
  known (storeMoving.throw failure) fun _ _ _ ran => absurd ran throw_ne_ok

theorem refuse (cause : Cause) (position : Position) :
    Safe typing alarm (Exec.refuse cause position : Exec α) (Exec.refuse cause position) good machine :=
  throw _

/-- An action that leaves the store alone before the rest. -/
theorem after {setup : Exec α} (keeps : Keeps Machine.SameStore setup)
    (rest : ∀ value middle, setup machine = .ok value middle → middle.heap = machine.heap →
      Safe typing alarm (next value) (other value) fine middle) :
    Safe typing alarm (setup >>= next) (setup >>= other) fine machine := by
  refine bind (idle keeps) fun value middle ran _ _ => ?_
  exact rest value middle ran (keeps.ok ran).heap

theorem reading {next other : Machine → Exec β}
    (rest : Safe typing alarm (next machine) (other machine) fine machine) :
    Safe typing alarm (get >>= next) (get >>= other) fine machine :=
  rest

theorem guarded (condition : Prop) [Decidable condition] {stop : Exec Unit}
    {following trailing : Unit → Exec β} (keeps : Keeps Machine.SameStore stop)
    (stops : ∀ result final, stop machine ≠ .ok result final)
    (rest : Safe typing alarm (following ()) (trailing ()) fine machine) :
    Safe typing alarm (if condition then stop >>= following else following ())
      (if condition then stop >>= trailing else trailing ()) fine machine := by
  split
  · exact after keeps fun value middle ran _ => absurd ran (stops value middle)
  · exact rest

/-- An action on a machine that is set up for it and tidied afterwards. -/
theorem enclosed {setup tidy : Machine → Machine}
    (prepared : machine.Sound typing → (setup machine).Sound typing)
    (grown : machine.heap.Grown (setup machine).heap)
    (inside : Safe typing alarm left right good (setup machine))
    (restored : ∀ final, final.Sound typing → (tidy final).Sound typing)
    (same : ∀ final, (tidy final).heap = final.heap) :
    Safe typing alarm (modify setup >>= fun _ => ensuring tidy left)
      (modify setup >>= fun _ => ensuring tidy right) good machine := by
  intro sound
  refine (inside (prepared sound)).ensuring tidy fun result final ⟨kept, more, known⟩ => ?_
  rw [same final]
  exact ⟨restored final kept, grown.trans more, known⟩

end Safe

end Exec

end Onepass
