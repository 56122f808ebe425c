import LinearExecutable.Bytes.Layout
import LinearExecutable.Error

/-!
# Bounded reading

A `Source` is a buffer with the byte order of its words. Every read names a window of the buffer by
offset and size; a window that does not lie inside the buffer is refused whole, so no read comes up
short. Only `Source.slice`, which looks for signatures, takes what there is.
-/

namespace LinearExecutable

structure Source where
  buffer : ByteArray
  order : ByteOrder

namespace Source

/-- The bytes of a source, from the first on. -/
def toList (source : Source) : List UInt8 :=
  source.buffer.data.toList

def size (source : Source) : Nat :=
  source.buffer.size

/-- The same bytes with words in another order. -/
def withOrder (source : Source) (order : ByteOrder) : Source :=
  { source with order }

/-- The order of a source with the given bytes, or the failure that the symbol names none. -/
def orderOf (symbol : String) : Except Error ByteOrder :=
  match ByteOrder.ofSymbol? symbol with
  | some order => .ok order
  | none => .error (.byteOrder symbol)

/-- The bytes from `start` to before `stop`, as far as they are there. -/
def segment (source : Source) (start stop : Nat) : List UInt8 :=
  (source.buffer.extract start stop).data.toList

/-- Accepts the windows that lie inside the source. -/
def require (source : Source) (offset size : Int) : Except Error Unit :=
  if offset < 0 ∨ size < 0 ∨ source.size < offset + size then
    .error (.truncated (.window size offset source.size))
  else
    .ok ()

/-- The bytes of a window. -/
def read (source : Source) (offset size : Int) : Except Error (List UInt8) := do
  source.require offset size
  return source.segment offset.toNat (offset + size).toNat

/-- A place counted from the start, or from the end if negative, moved into the source. -/
def place (source : Source) (i : Int) : Nat :=
  if i < 0 then (i + source.size).toNat else min i.toNat source.size

/-- The bytes between two places, as far as they are there; negative places count from the end. -/
def slice (source : Source) (start stop : Int) : List UInt8 :=
  source.segment (source.place start) (source.place stop)

/-- The two bytes at an offset where a signature is expected. -/
def signatureAt (source : Source) (offset : Int) : List UInt8 :=
  source.slice offset (offset + 2)

/-! ## Records -/

/-- The values of the record at an offset. -/
def unpack (source : Source) (layout : Layout) (offset : Int) : Except Error (List Value) := do
  let bytes ← source.read offset layout.size
  match layout.decode? source.order bytes with
  | some values => .ok values
  | none => .error .malformed

/-- Consecutive pieces of `size` bytes; what is left at the end is dropped. -/
def chunks (size : Nat) : Nat → List UInt8 → List (List UInt8)
  | 0, _ => []
  | count + 1, bytes => bytes.take size :: chunks size count (bytes.drop size)

/-- The values of `count` records that follow one another from an offset on. -/
def unpackMany (source : Source) (layout : Layout) (offset count : Int) :
    Except Error (List (List Value)) := do
  let bytes ← source.read offset (layout.size * count)
  if layout.size = 0 then .error .emptyLayout
  else
    match (chunks layout.size count.toNat bytes).mapM (layout.decode? source.order) with
    | some records => .ok records
    | none => .error .malformed

/-- The unsigned word of `width` bytes at an offset. -/
def word (source : Source) (width : Nat) (offset : Int) : Except Error Nat := do
  match ← source.unpack [.unsigned 1 width] offset with
  | [.unsigned n] => .ok n
  | _ => .error .malformed

/-- The string at an offset whose length stands in the byte before it, and the offset behind it. -/
def readCounted (source : Source) (offset : Int) : Except Error (List UInt8 × Int) := do
  let length ← source.word 1 offset
  let bytes ← source.read (offset + 1) length
  return (bytes, offset + 1 + length)

end Source

end LinearExecutable
