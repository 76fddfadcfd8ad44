import Onepass.Text.Quoted

/-! # Reading bytes as UTF-8

A text file is read strictly: the first byte sequence that is no encoding of a character is reported
with its place and with what is wrong about it. The byte after a leading byte is held to the range
that rules out overlong forms, surrogates and code points beyond the last one, so a bad second byte
is noticed at once and counts as a bad continuation of the leading byte alone.
-/

set_option autoImplicit false

namespace Onepass.Text.Utf8

/-- What is wrong with a byte sequence. -/
inductive Fault where
  /-- The byte begins no character. -/
  | invalidStart
  /-- A byte does not continue the character that was begun. -/
  | invalidContinuation
  /-- The bytes end inside a character. -/
  | unexpectedEnd
  deriving DecidableEq, Repr

/-- The wording of a fault. -/
def Fault.reason : Fault → String
  | .invalidStart => "invalid start byte"
  | .invalidContinuation => "invalid continuation byte"
  | .unexpectedEnd => "unexpected end of data"

/-- A decoding failure: the byte sequence from `start`, `length` bytes long, that begins with
`byte`. -/
structure Failure where
  start : Nat
  length : Nat
  byte : Nat
  fault : Fault
  deriving DecidableEq, Repr

/-- One bad byte is named by its value, several by their places. -/
def Failure.message (failure : Failure) : String :=
  let place :=
    if failure.length == 1 then
      "byte 0x" ++ String.ofList (hexadecimal 2 failure.byte) ++ " in position " ++
        toString failure.start
    else
      "bytes in position " ++ toString failure.start ++ "-" ++
        toString (failure.start + failure.length - 1)
  "'utf-8' codec can't decode " ++ place ++ ": " ++ failure.fault.reason

/-- What a leading byte announces: the bits it contributes, how many bytes follow, and the range of
the first of them. -/
structure Lead where
  bits : Nat
  following : Nat
  low : Nat := 0x80
  high : Nat := 0xbf

/-- The announcement of a leading byte; bytes that begin no character announce nothing. -/
def lead? (byte : Nat) : Option Lead :=
  if byte < 0x80 then some { bits := byte, following := 0 }
  else if byte < 0xc2 then none
  else if byte < 0xe0 then some { bits := byte - 0xc0, following := 1 }
  else if byte == 0xe0 then some { bits := 0, following := 2, low := 0xa0 }
  else if byte == 0xed then some { bits := 0xd, following := 2, high := 0x9f }
  else if byte < 0xf0 then some { bits := byte - 0xe0, following := 2 }
  else if byte == 0xf0 then some { bits := 0, following := 3, low := 0x90 }
  else if byte < 0xf4 then some { bits := byte - 0xf0, following := 3 }
  else if byte == 0xf4 then some { bits := 4, following := 3, high := 0x8f }
  else none

/-- Reads the bytes from the given place on. `pending` is the unfinished character, if any: where it
began, its leading byte, the bits so far, how many bytes are still missing, and the range of the
next. -/
def decodeFrom (place : Nat) (pending : Option (Nat × Nat × Lead)) :
    List UInt8 → Except Failure (List Char)
  | [] =>
    match pending with
    | none => .ok []
    | some (start, first, _) => .error ⟨start, place - start, first, .unexpectedEnd⟩
  | next :: rest =>
    let byte := next.toNat
    match pending with
    | none =>
      match lead? byte with
      | none => .error ⟨place, 1, byte, .invalidStart⟩
      | some lead =>
        if lead.following == 0 then do
          let chars ← decodeFrom (place + 1) none rest
          return Char.ofNat lead.bits :: chars
        else
          decodeFrom (place + 1) (some (place, byte, lead)) rest
    | some (start, first, lead) =>
      if lead.low ≤ byte && byte ≤ lead.high then
        let bits := lead.bits * 0x40 + (byte - 0x80)
        if lead.following == 1 then do
          let chars ← decodeFrom (place + 1) none rest
          return Char.ofNat bits :: chars
        else
          let pending := { bits, following := lead.following - 1 }
          decodeFrom (place + 1) (some (start, first, pending)) rest
      else
        .error ⟨start, place - start, first, .invalidContinuation⟩

/-- The text encoded by the bytes, or the first fault in them. -/
def decode (bytes : List UInt8) : Except Failure (List Char) :=
  decodeFrom 0 none bytes

end Onepass.Text.Utf8
