import LinearExecutable.Bytes.Order

/-!
# Layouts of packed records

A `Layout` lists the fields of a record that stand side by side without padding. Fields of the same
width are given as a run with a count, so the size of a layout follows from its text alone, whatever
its counts. `Layout.decode?` takes exactly `Layout.size` bytes apart; `Layout.encode?` puts the
values back together.
-/

namespace LinearExecutable

/-- A run of fields of one kind. -/
inductive Field where
  /-- Unsigned words, each `width` bytes wide. -/
  | unsigned (count width : Nat)
  /-- Signed words, each `width` bytes wide. -/
  | signed (count width : Nat)
  /-- One string of exactly `size` bytes. -/
  | text (size : Nat)
  deriving DecidableEq, Repr

/-- What one field holds. -/
inductive Value where
  | unsigned (n : Nat)
  | signed (i : Int)
  | bytes (b : List UInt8)
  deriving DecidableEq, Repr

/-- The value of an unsigned field. -/
def Value.nat? : Value → Option Nat
  | .unsigned n => some n
  | _ => none

abbrev Layout := List Field

namespace Field

/-- The number of values of a run. -/
def count : Field → Nat
  | .unsigned count _ => count
  | .signed count _ => count
  | .text _ => 1

/-- The number of bytes of a run. -/
def size : Field → Nat
  | .unsigned count width => count * width
  | .signed count width => count * width
  | .text size => size

/-- The first `count` pieces of `width` bytes, or nothing if the bytes do not divide that way. -/
def pieces? (width : Nat) : Nat → List UInt8 → Option (List (List UInt8))
  | 0, [] => some []
  | 0, _ :: _ => none
  | count + 1, bytes =>
    let piece := bytes.take width
    if piece.length = width then
      (pieces? width count (bytes.drop width)).map (piece :: ·)
    else
      none

/-- The values of a run that takes up all the given bytes. -/
def decode? (order : ByteOrder) : Field → List UInt8 → Option (List Value)
  | .unsigned count width, bytes =>
    (pieces? width count bytes).map (·.map fun piece => .unsigned (order.word piece))
  | .signed count width, bytes =>
    (pieces? width count bytes).map
      (·.map fun piece => .signed (Word.toSigned width (order.word piece)))
  | .text size, bytes => if bytes.length = size then some [.bytes bytes] else none

end Field

namespace Layout

/-- The number of bytes of a record. -/
def size : Layout → Nat
  | [] => 0
  | field :: rest => field.size + size rest

/-- The values of a record that takes up all the given bytes. -/
def decode? (order : ByteOrder) : Layout → List UInt8 → Option (List Value)
  | [], [] => some []
  | [], _ :: _ => none
  | field :: rest, bytes => do
    let first ← field.decode? order (bytes.take field.size)
    let others ← decode? order rest (bytes.drop field.size)
    some (first ++ others)

end Layout

/-! ## Putting records together -/

/-- The bytes of one value in a field that is `width` bytes wide. -/
def Value.encode (order : ByteOrder) (width : Nat) : Value → List UInt8
  | .unsigned n => order.wordBytes width n
  | .signed i => order.wordBytes width (Word.ofSigned width i)
  | .bytes b => b

/-- The width of each value of a run, in order. -/
def Field.widths : Field → List Nat
  | .unsigned count width => List.replicate count width
  | .signed count width => List.replicate count width
  | .text size => [size]

/-- The bytes of a record with the given values, one value for each field. -/
def Layout.encode (order : ByteOrder) (layout : Layout) (values : List Value) : List UInt8 :=
  ((layout.flatMap Field.widths).zip values).flatMap fun (width, value) => value.encode order width

end LinearExecutable
