import LinearExecutable.Bytes.Source
import LinearExecutable.Text.Decimal

/-!
# Formats: layouts written as text

A layout is written as a row of field codes, each with an optional count in front: `2s41I` is a
string of two bytes and 41 unsigned words of four bytes. Small letters are signed words. A first
character may fix the byte order: `<` and `=` are little, `>` and `!` are big; without one the
record takes the order of its source. Fields stand side by side then. Behind `@` words are little
and start at multiples of their width, with gaps in front of them that hold nothing.
-/

namespace LinearExecutable

namespace Field

/-- The run of fields that a code with a count stands for. -/
def ofCode? (count : Nat) : Char → Option Field
  | 'b' => some (.signed count 1)
  | 'B' => some (.unsigned count 1)
  | 'h' => some (.signed count 2)
  | 'H' => some (.unsigned count 2)
  | 'i' => some (.signed count 4)
  | 'I' => some (.unsigned count 4)
  | 'q' => some (.signed count 8)
  | 'Q' => some (.unsigned count 8)
  | 's' => some (.text count)
  | _ => none

/-- The multiples at which a run starts if it is aligned. -/
def alignment : Field → Nat
  | .unsigned _ width => width
  | .signed _ width => width
  | .text _ => 1

/-- The number of bytes from a position to where an aligned run starts. -/
def gapAt (position : Nat) (field : Field) : Nat :=
  (field.alignment - position % field.alignment) % field.alignment

end Field

/-- The fields of a row of codes; `count?` holds the digits read in front of the next code. -/
def Layout.ofCodes? (count? : Option Nat) : List Char → Option Layout
  | [] => if count?.isSome then none else some []
  | c :: rest =>
    match Text.asciiDigit? c with
    | some d => ofCodes? (some (count?.getD 0 * 10 + d)) rest
    | none => do
      let field ← Field.ofCode? (count?.getD 1) c
      let fields ← ofCodes? none rest
      some (field :: fields)

/-! ## Records with gaps -/

/-- A part of a record. -/
inductive Slot where
  | run (field : Field)
  /-- Bytes that hold nothing. -/
  | gap (size : Nat)

namespace Slot

/-- What a slot is read as: a gap is a string that is not shown. -/
def toField : Slot → Field
  | .run field => field
  | .gap size => .text size

/-- The fields of a layout from a position on, each with the gap that aligns it. -/
def aligned (position : Nat) : Layout → List Slot
  | [] => []
  | field :: rest =>
    let gap := field.gapAt position
    .gap gap :: .run field :: aligned (position + gap + field.size) rest

/-- The values of the fields, given those of all slots. -/
def shown : List Slot → List Value → List Value
  | [], _ => []
  | .gap _ :: rest, values => shown rest (values.drop 1)
  | .run field :: rest, values =>
    values.take field.count ++ shown rest (values.drop field.count)

end Slot

/-! ## Formats -/

/-- What the first character of a text may fix. -/
structure Format.Mark where
  order : ByteOrder
  isAligned : Bool

def Format.Mark.ofChar? : Char → Option Format.Mark
  | '<' | '=' => some ⟨.little, false⟩
  | '>' | '!' => some ⟨.big, false⟩
  | '@' => some ⟨.little, true⟩
  | _ => none

/-- The slots of a record, and the byte order if it is fixed. -/
structure Format where
  order? : Option ByteOrder
  slots : List Slot

namespace Format

/-- The format of a layout behind a mark, or without one. -/
def ofLayout (mark? : Option Mark) (layout : Layout) : Format where
  order? := mark?.map Mark.order
  slots := if mark?.any Mark.isAligned then Slot.aligned 0 layout else layout.map .run

/-- The layout that a record is read with. -/
def layout (format : Format) : Layout := format.slots.map Slot.toField

/-- The number of bytes of a record. -/
def size (format : Format) : Nat := format.layout.size

/-- The most bytes that a record can have. -/
def maxSize : Nat := 0x7fffffffffffffff

/-- The format that a text names. -/
def ofText (text : String) : Except Error Format :=
  match text.toList with
  | [] => .error .blankLayout
  | c :: rest =>
    let mark? := Mark.ofChar? c
    match Layout.ofCodes? none (if mark?.isSome then rest else c :: rest) with
    | none => .error .malformed
    | some layout =>
      let format := ofLayout mark? layout
      if maxSize < format.size then .error .oversizedLayout else .ok format

end Format

/-! ## Reading by formats -/

namespace Source

/-- The source with the order in which a format reads it. -/
def under (source : Source) (format : Format) : Source :=
  source.withOrder (format.order?.getD source.order)

/-- The values of the record at an offset whose format is written as text. -/
def unpackText (source : Source) (text : String) (offset : Int) : Except Error (List Value) := do
  let format ← Format.ofText text
  let values ← (source.under format).unpack format.layout offset
  return Slot.shown format.slots values

/-- The values of `count` such records that follow one another from an offset on. -/
def unpackManyText (source : Source) (text : String) (offset count : Int) :
    Except Error (List (List Value)) := do
  let format ← Format.ofText text
  let records ← (source.under format).unpackMany format.layout offset count
  return records.map (Slot.shown format.slots)

end Source

end LinearExecutable
