import Onepass.Execution.Expression

/-! # What a loop runs through

The values of a counted loop are fixed when its header was evaluated: the elements that an array
had, the characters of a text, or the numbers of a progression. The numbers are formed one at a
time.
-/

set_option autoImplicit false

namespace Onepass

/-- The values that a loop has still to run through. -/
inductive Iteration where
  | listed (values : List Value)
  | counted (progression : Decimal.Progression)
  deriving DecidableEq, Repr

namespace Iteration

/-- The next value and what comes after it, or nothing when the loop is through. -/
def next? : Iteration → Except Decimal.Refusal (Option (Value × Iteration))
  | .listed [] => .ok none
  | .listed (value :: rest) => .ok (some (value, .listed rest))
  | .counted progression => do
    match ← progression.next? with
    | some (number, rest) => return some (.number number, .counted rest)
    | none => return none

end Iteration

/-- What an execution fails with when the next value of a counting loop is refused. -/
def Failure.ofStep : Decimal.Refusal → Failure
  | .fault fault => .progression fault
  | .tooLong => .limit .memory

namespace Exec

/-- The next value of an iteration. -/
def nextOf (iteration : Iteration) : Exec (Option (Value × Iteration)) :=
  match iteration.next? with
  | .ok next => pure next
  | .error refusal => throw (.ofStep refusal)

/-- The number that a bound of a range is. -/
def boundOf (value : Value) (position : Position) : Exec Decimal := do
  match value with
  | .number number => return number
  | _ => refuse (.boundNotNumber (← describe value)) position

/-- The iteration over an array or a text. -/
def iterationOver (value : Value) (position : Position) : Exec Iteration := do
  match value with
  | .array address => return .listed ((← get).heap.items address).toList
  | .string text => return .listed (text.toList.map .char)
  | _ => refuse (.notIterable (← describe value)) position

section

variable (script : Script)

/-- Reads the step of a range, which is one if it is left out, with the position of what it begins
with. -/
def rangeStep (expression : Exec Value) : Exec (Value × Position) := do
  if ← accept script (.symbol .dotDot) then
    let token ← current script
    return (← expression, token.position)
  else
    return (.number .one, (← current script).position)

/-- Reads what a loop runs through: a range with an optional step, an array or a text. All parts of
a range are evaluated before any of them is checked. -/
def iteration (expression : Exec Value) : Exec Iteration := do
  let start ← current script
  let first ← expression
  if ← accept script (.symbol .dotDot) then
    let finish ← current script
    let last ← expression
    let (step, stepPosition) ← rangeStep script expression
    let lower ← boundOf first start.position
    let upper ← boundOf last finish.position
    let distance ← boundOf step stepPosition
    if distance.isZero then
      refuse .zeroStep stepPosition
    return .counted (.start lower upper distance)
  else
    iterationOver first start.position

end

end Exec

end Onepass
