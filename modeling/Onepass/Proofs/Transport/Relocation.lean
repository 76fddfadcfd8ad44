import Onepass.Proofs.Transport.Statement

/-! # Scripts whose parts are moved

The parts of a script can stand at other places in another one. An execution of the first script is
then one of the second, with the cursor and the bodies of its functions moved. Each part is compared
with the place it is moved to, and calls lead from one part to another.
-/

set_option autoImplicit false

namespace Onepass

/-! ## Machines at other places -/

/-- The function with its body at other places. -/
def Function.relocated (move : Nat → Nat) (function : Function) : Function :=
  { function with start := move function.start, finish := move function.finish }

/-- The machine at another place, with the bodies of its functions moved in the same way. -/
def Machine.relocated (move : Nat → Nat) (machine : Machine) : Machine :=
  { machine with
    cursor := move machine.cursor
    functions := machine.functions.map (Function.relocated move)
    frames := machine.frames.map (Function.relocated move) }

/-- The outcome with its machine at another place. -/
def Exec.relocatedOutcome {α : Type} (move : Nat → Nat) :
    EStateM.Result Failure Machine α → EStateM.Result Failure Machine α
  | .ok result machine => .ok result (machine.relocated move)
  | .error failure machine => .error failure (machine.relocated move)

theorem Function.sameSignature_relocated (move : Nat → Nat) (function : Function) :
    function.SameSignature (function.relocated move) :=
  ⟨rfl, rfl, rfl⟩

theorem Function.relocated_id : Function.relocated id = id :=
  rfl

@[simp] theorem Machine.relocated_id (machine : Machine) : machine.relocated id = machine := by
  simp [Machine.relocated, Function.relocated_id]

theorem FunctionTable.lookup?_relocated (table : FunctionTable) (move : Nat → Nat) (name : String) :
    FunctionTable.lookup? (table.map (Function.relocated move)) name =
      (table.lookup? name).map (Function.relocated move) := by
  unfold FunctionTable.lookup?
  rw [List.find?_map]
  rfl

theorem FunctionTable.not_mem_of_lookup? {table : FunctionTable} {name : String} {function : Function}
    (unknown : table.lookup? name = none) (named : function.name = name) : function ∉ table := by
  intro member
  have other := List.find?_eq_none.1 unknown function member
  simp [named] at other

/-! ## Relocations -/

/-- How the parts of a script are moved. -/
structure Relocation (Part : Type) where
  parts : Part → Embedding
  /-- The place that a place is moved to. -/
  move : Nat → Nat
  /-- Functions that the script neither calls nor declares. -/
  unused : FunctionTable

namespace Relocation

variable {Part : Type} {relocation : Relocation Part} {left right : Script} {part : Part}

/-- The parts of the first script stand at the places of the second one that they are moved to. -/
structure Relocates (relocation : Relocation Part) (left right : Script) : Prop where
  embeds : ∀ part, (relocation.parts part).Embeds left right
  positions : ∀ part, (relocation.parts part).positions = Eq
  ends : ∀ part other, (relocation.parts other).ends = (relocation.parts part).ends
  moves : ∀ {part place twin}, (relocation.parts part).places place twin →
    twin = relocation.move place
  apart : ∀ {part other place twin further}, (relocation.parts part).places place twin →
    (relocation.parts other).places further twin → left.kindAt place ≠ .endOfInput →
      left.kindAt further ≠ .endOfInput → place = further
  results : ∀ {part place twin}, (relocation.parts part).places place twin →
    left.kindAt place = .symbol .rightParen → left.kindAt (place + 1) = .symbol .colon →
      ∀ type, (relocation.parts part).running (some type)
  nothing : ∀ part, (relocation.parts part).running (some .void)
  avoids : ∀ {part place twin}, (relocation.parts part).places place twin →
    left.kindAt place = .identifier → left.kindAt (place + 1) = .symbol .leftParen →
      relocation.unused.lookup? (left.tokenAt place).word = none

/-- The body of the function stands in one of the parts. -/
def Placed (relocation : Relocation Part) (left : Script) (function : Function) : Prop :=
  ∃ part, (relocation.parts part).places function.start (relocation.move function.start) ∧
    (relocation.parts part).places function.finish (relocation.move function.finish) ∧
      left.kindAt function.start ≠ .endOfInput ∧
        (relocation.parts part).running (some function.returnType)

/-- The machine is in a part of the script, and so are the bodies of its functions. -/
structure Within (relocation : Relocation Part) (left : Script) (part : Part) (machine : Machine) :
    Prop where
  cursor : (relocation.parts part).places machine.cursor (relocation.move machine.cursor)
  running : (relocation.parts part).running machine.running
  functions : ∀ function ∈ machine.functions,
    function ∈ relocation.unused ∨ relocation.Placed left function

/-- Machines in a part of the script and at the place that it is moved to. -/
def transport (relocation : Relocation Part) (left : Script) (part : Part) : Transport where
  toEmbedding := relocation.parts part
  failures := Eq
  functions function twin :=
    twin = function.relocated relocation.move ∧ relocation.Placed left function
  machines first second := second = first.relocated relocation.move ∧ relocation.Within left part first

theorem Relocates.laws (relocates : relocation.Relocates left right) (part : Part) :
    (relocation.transport left part).Laws left right where
  embeds := relocates.embeds part
  diagnostic := by
    intro position twin cause near
    have same : position = twin := relocates.positions part ▸ near
    exact congrArg (fun position => Failure.diagnostic ⟨cause, position⟩) same
  limit _ := rfl
  endless := rfl
  exhausted := rfl
  agree := by
    rintro machine _ ⟨rfl, within⟩
    refine ⟨rfl, rfl, rfl, rfl, rfl, within.cursor, within.running, ?_, ?_, ?_⟩
    · change Option.Rel _ machine.frames.head? (machine.frames.map _).head?
      rw [List.head?_map]
      cases machine.frames.head? with
      | none => exact .none
      | some function => exact .some (function.sameSignature_relocated _)
    · exact List.length_map _
    · intro name twin called
      obtain ⟨place, there, paired, rfl, identifier, parenthesis⟩ := called.place
      change Option.Rel _ _ (FunctionTable.lookup? (machine.functions.map _) _)
      rw [FunctionTable.lookup?_relocated]
      cases found : machine.functions.lookup? (left.tokenAt place).word with
      | none => exact .none
      | some function =>
          have named : function.name = (left.tokenAt place).word := by
            simpa using List.find?_some found
          have used : function ∉ relocation.unused :=
            FunctionTable.not_mem_of_lookup? (relocates.avoids paired identifier parenthesis) named
          have placed := within.functions function (List.mem_of_find?_eq_some found)
          exact .some ⟨rfl, placed.resolve_left used⟩
  moved := by
    rintro machine _ ⟨rfl, within⟩ place twin paired
    obtain rfl := relocates.moves paired
    exact ⟨rfl, paired, within.running, within.functions⟩
  stored := by
    rintro machine _ ⟨rfl, within⟩ heap
    exact ⟨rfl, within.cursor, within.running, within.functions⟩
  wrote := by
    rintro machine _ ⟨rfl, within⟩ text
    exact ⟨rfl, within.cursor, within.running, within.functions⟩
  looped := by
    rintro machine _ ⟨rfl, within⟩ loopDepth
    exact ⟨rfl, within.cursor, within.running, within.functions⟩
  gave := by
    rintro machine _ ⟨rfl, within⟩ value
    exact ⟨rfl, within.cursor, within.running, within.functions⟩
  signature := by
    rintro function _ ⟨rfl, _⟩
    exact function.sameSignature_relocated _
  starts := by
    rintro function _ other _ ⟨rfl, _, placed, _, proper, _⟩ ⟨rfl, _, further, _, apart, _⟩
    refine ⟨fun same => ?_, fun same => congrArg relocation.move same⟩
    rw [show relocation.move function.start = relocation.move other.start from same] at placed
    exact relocates.apart placed further proper apart
  corresponding := by
    intro function twin signature starts finishes proper typed
    have moved : twin = function.relocated relocation.move := by
      rw [signature.eq, relocates.moves starts, relocates.moves finishes]
      rfl
    subst moved
    refine ⟨rfl, part, starts, finishes, proper, ?_⟩
    rcases typed with none | ⟨place, there, paired, closing, colon⟩
    · rw [none]
      exact relocates.nothing part
    · exact relocates.results paired closing colon _
  registered := by
    rintro machine _ ⟨rfl, within⟩ function _ ⟨rfl, placed⟩
    refine ⟨by simp [Machine.relocated], within.cursor, within.running, ?_⟩
    intro other declared
    rcases List.mem_append.1 declared with before | added
    · exact within.functions other before
    · obtain rfl := List.mem_singleton.1 added
      exact .inr placed
  declared := by
    rintro machine _ ⟨rfl, within⟩ name binding
    exact ⟨rfl, within.cursor, within.running, within.functions⟩
  assigned := by
    rintro machine _ ⟨rfl, within⟩ name value _
    exact ⟨rfl, within.cursor, within.running, within.functions⟩
  opened := by
    rintro machine _ ⟨rfl, within⟩ scope
    exact ⟨rfl, within.cursor, within.running, within.functions⟩
  closed := by
    rintro _ _ machine _ _ scope added _ ⟨rfl, within⟩
    exact ⟨rfl, within.cursor, within.running, within.functions⟩

/-- A call leads to the part where the body of the function stands, and back to the caller. -/
theorem Relocates.calls (relocates : relocation.Relocates left right) :
    Transport.Calls (relocation.transport left) where
  failures _ _ := rfl
  ends := relocates.ends
  leads := by
    rintro part function _ machine _ ⟨rfl, other, starts, finishes, proper, allowed⟩ ⟨rfl, within⟩ _
    refine ⟨other, finishes, fun arguments => ⟨rfl, starts, allowed, within.functions⟩, ?_⟩
    rintro arguments inside _ added kept ⟨rfl, ended⟩
    have callers : inside.frames.tail = machine.frames := by rw [kept.frames]; rfl
    refine ⟨?_, within.cursor, ?_, ended.functions⟩
    · simp [Machine.relocated, Exec.leaveCall, List.map_tail]
    · change (relocation.parts part).running (inside.frames.tail.head?.map Function.returnType)
      rw [callers]
      exact within.running

/-- Beginning a statement is seen alike. -/
theorem Relocates.counted (relocates : relocation.Relocates left right) {verbosity : Nat}
    {first second : Machine} (related : (relocation.transport left part).machines first second)
    (alike : Token.Alike (relocation.parts part).positions (left.tokenAt first.cursor)
      (right.tokenAt second.cursor)) :
    (relocation.transport left part).machines (Exec.observed left verbosity first)
      (Exec.observed right verbosity second) := by
  obtain ⟨rfl, within⟩ := related
  have same : left.tokenAt first.cursor = right.tokenAt (first.relocated relocation.move).cursor :=
    (relocates.positions part ▸ alike).eq
  refine ⟨?_, within.cursor, within.running, within.functions⟩
  unfold Exec.observed
  rw [← same]
  have outside : (first.relocated relocation.move).frames.isEmpty = first.frames.isEmpty :=
    List.isEmpty_map
  generalize left.tokenAt first.cursor = token
  change ({ first.relocated relocation.move with
    trace := if (_ || (_ && _ && (first.relocated relocation.move).frames.isEmpty)) = true then _
      else _
    steps := _ } : Machine) = _
  rw [outside]
  rfl

theorem Relocates.evaluators (relocates : relocation.Relocates left right) (verbosity fuel : Nat)
    (part : Part) :
    (relocation.transport left part).Evaluators left (Exec.evaluator left verbosity fuel)
      (Exec.evaluator right verbosity fuel) :=
  relocates.calls.sameEvaluators relocates.laws (fun _ _ => rfl) relocates.counted fuel part

end Relocation

end Onepass
