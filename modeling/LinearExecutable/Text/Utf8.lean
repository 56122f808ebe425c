import LinearExecutable.Text.Numeral

/-!
# Bytes that are no text

The bytes of a file are read in portions and spell characters one after the other. A character that
is not complete at the end of a portion is continued by the next one, and what is left of the last
portion is read on its own. A fault says where in a portion the bytes are that spell no character.
-/

namespace LinearExecutable.Text

/-- What is wrong with bytes. -/
inductive Utf8Cause where
  /-- No character starts so. -/
  | start
  /-- A character starts so, but does not go on so. -/
  | continuation
  /-- A character is not complete. -/
  | truncated
  deriving DecidableEq, Repr

def Utf8Cause.message : Utf8Cause → String
  | start => "invalid start byte"
  | continuation => "invalid continuation byte"
  | truncated => "unexpected end of data"

/-- Bytes that spell no character, and the place where they are. -/
structure Utf8Fault where
  position : Nat
  bytes : List UInt8
  cause : Utf8Cause
  deriving DecidableEq, Repr

namespace Utf8Fault

/-- The bytes at fault: one of them is shown, several are not. -/
def place (f : Utf8Fault) : String :=
  match f.bytes with
  | [b] => s!"byte 0x{hexPadded 2 b.toNat} in position {f.position}"
  | bytes => s!"bytes in position {f.position}-{f.position + bytes.length - 1}"

def message (f : Utf8Fault) : String :=
  s!"'utf-8' codec can't decode {f.place}: {f.cause.message}"

end Utf8Fault

namespace Utf8

/-- The range of the second byte of a character and the number of the bytes behind the first one. -/
def tailOf? (b : UInt8) : Option (UInt8 × UInt8 × Nat) :=
  if b < 0x80 then some (0x80, 0xbf, 0)
  else if b < 0xc2 then none
  else if b < 0xe0 then some (0x80, 0xbf, 1)
  else if b = 0xe0 then some (0xa0, 0xbf, 2)
  else if b = 0xed then some (0x80, 0x9f, 2)
  else if b < 0xf0 then some (0x80, 0xbf, 2)
  else if b = 0xf0 then some (0x90, 0xbf, 3)
  else if b < 0xf4 then some (0x80, 0xbf, 3)
  else if b = 0xf4 then some (0x80, 0x8f, 3)
  else none

/-- What follows the first byte of a character. -/
inductive Tail where
  /-- All its bytes, and the rest behind them. -/
  | complete (rest : List UInt8)
  /-- So many bytes of it, the first one included, and then one that does not belong to it. -/
  | wrong (count : Nat)
  | missing
  deriving DecidableEq, Repr

/-- Reads the bytes of a character that are missing behind `count` of them; the next one is in a
range. -/
def readTail (least greatest : UInt8) (count : Nat) : (missing : Nat) → List UInt8 → Tail
  | 0, rest => .complete rest
  | _ + 1, [] => .missing
  | missing + 1, b :: rest =>
    if least ≤ b && b ≤ greatest then readTail 0x80 0xbf (count + 1) missing rest else .wrong count

/-- Reads a portion from a position on. What is left is a character that is not complete. `steps`
bounds the number of characters. -/
def readPortion (position : Nat) : (steps : Nat) → List UInt8 → Except Utf8Fault (List UInt8)
  | _, [] => .ok []
  | 0, rest => .ok rest
  | steps + 1, b :: rest =>
    match tailOf? b with
    | none => .error ⟨position, [b], .start⟩
    | some (least, greatest, missing) =>
      match readTail least greatest 1 missing rest with
      | .complete rest => readPortion (position + missing + 1) steps rest
      | .wrong count => .error ⟨position, (b :: rest).take count, .continuation⟩
      | .missing => .ok (b :: rest)

/-- The first fault in portions, in front of which `pending` is left. -/
def faultIn? (pending : List UInt8) : List (List UInt8) → Option Utf8Fault
  | [] => if pending.isEmpty then none else some ⟨0, pending, .truncated⟩
  | portion :: portions =>
    let bytes := pending ++ portion
    match readPortion 0 bytes.length bytes with
    | .error fault => some fault
    | .ok rest => faultIn? rest portions

/-- The number of bytes in a portion. -/
def portionSize : Nat := 8192

/-- The portions of bytes, `count` at most. -/
def portions : (count : Nat) → List UInt8 → List (List UInt8)
  | _, [] => []
  | 0, _ => []
  | count + 1, bytes => bytes.take portionSize :: portions count (bytes.drop portionSize)

/-- Why the bytes of a file are no text, if they are none. -/
def fault? (bytes : List UInt8) : Option Utf8Fault := faultIn? [] (portions bytes.length bytes)

end Utf8

end LinearExecutable.Text
