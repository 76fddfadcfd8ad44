import Onepass.Machine.Basic
import Onepass.Script.Extent

/-! # Moving through the script

The actions that read the script at the cursor. The cursor never moves past the end of the script by
reading.
-/

set_option autoImplicit false

namespace Onepass.Exec

variable (script : Script)

/-- The token at the cursor. -/
def current : Exec Token := do
  return script.tokenAt (← get).cursor

/-- The kind of the token at the cursor. -/
def currentKind : Exec Kind := do
  return script.kindAt (← get).cursor

/-- The kind of the token after the one at the cursor. -/
def followingKind : Exec Kind := do
  return script.kindAt ((← get).cursor + 1)

/-- Puts the cursor at a place. -/
def moveTo (place : Nat) : Exec Unit :=
  modify fun machine => { machine with cursor := place }

/-- Reads the token at the cursor and moves on, unless it is the end. -/
def advance : Exec Token := do
  let token ← current script
  if token.kind ≠ .endOfInput then
    modify fun machine => { machine with cursor := machine.cursor + 1 }
  return token

/-- Reads the token at the cursor if it is of the given kind, and tells whether it is. -/
def accept (kind : Kind) : Exec Bool := do
  if (← currentKind script) = kind then
    let _ ← advance script
    return true
  else
    return false

/-- Fails because the token at the cursor is not of the wanted kind. -/
def refuseToken {α : Type} (wanted : Kind) : Exec α := do
  let token ← current script
  refuse (.expected wanted token.kind) token.position

/-- Reads the token at the cursor, which has to be of the given kind. -/
def expect (kind : Kind) : Exec Token := do
  if (← currentKind script) = kind then advance script else refuseToken script kind

/-- Reads a symbol. -/
def expectSymbol (mark : Symbol) : Exec Unit := do
  let _ ← expect script (.symbol mark)

/-- Reads a semicolon, if there is one. -/
def acceptSemicolon : Exec Unit := do
  let _ ← accept script (.symbol .semicolon)

/-- Moves the cursor to the end of the part of the script that begins there. -/
def passOver (partEnd : (place : Nat) → Except Diagnostic (Ahead place)) : Exec Unit := do
  let next ← ofDiagnosed (partEnd (← get).cursor)
  moveTo next.val

/-- Passes over a block or a single statement. -/
def passBody : Exec Unit := do
  let running := (← get).running
  passOver (script.bodyEnd running)

/-- Where the body that begins at a place ends. The cursor stays. -/
def bodyEnd (place : Nat) : Exec Nat := do
  let running := (← get).running
  let next ← ofDiagnosed (script.bodyEnd running place)
  return next.val

/-- Reads a declared type. -/
def readType : Exec DeclaredType := do
  let type ← ofDiagnosed (script.typeAt (← get).cursor)
  let _ ← advance script
  return type

/-- Reads items separated by commas until the token at the cursor is of the closing kind or no comma
follows. A comma may stand after the last item. The closing token itself is not read. -/
def separated {α : Type} (closing : Symbol) (item : Exec α) : Nat → Exec (List α)
  | 0 => throw .exhausted
  | fuel + 1 => do
    if (← currentKind script) = .symbol closing then
      return []
    else
      let first ← item
      if ← accept script (.symbol .comma) then
        return first :: (← separated closing item fuel)
      else
        return [first]

end Onepass.Exec
