import LinearExecutable.Bytes.Source

/-!
# The object table

A module consists of objects: ranges of memory that are filled from consecutive entries of the page
table. Objects are numbered from one in the order of their table.
-/

namespace LinearExecutable

/-- An entry of the object table. -/
structure ObjectEntry where
  number : Nat
  virtualSize : Nat
  base : Nat
  flags : Nat
  /-- The number of the first page, counted from one. -/
  firstPage : Nat
  pageCount : Nat
  reserved : Nat
  deriving DecidableEq, Repr

namespace ObjectEntry

/-- Six words of four bytes. -/
def layout : Layout := [.unsigned 6 4]

def isReadable (o : ObjectEntry) : Bool := o.flags.testBit 0

def isWritable (o : ObjectEntry) : Bool := o.flags.testBit 1

def isExecutable (o : ObjectEntry) : Bool := o.flags.testBit 2

def isResource (o : ObjectEntry) : Bool := o.flags.testBit 3

/-- The number behind the last page of the object. -/
def endPage (o : ObjectEntry) : Nat := o.firstPage + o.pageCount

/-- The numbers of the pages of the object, in order. -/
def pageNumbers (o : ObjectEntry) : List Nat := List.range' o.firstPage o.pageCount

/-- Whether a page belongs to the object. -/
def ownsPage (o : ObjectEntry) (page : Int) : Bool :=
  o.firstPage ≤ page && page < o.endPage

/-- The address behind the last byte of the object. -/
def endAddress (o : ObjectEntry) : Nat := o.base + o.virtualSize

/-- Whether an address lies in the object. -/
def containsAddress (o : ObjectEntry) (address : Int) : Bool :=
  o.base ≤ address && address < o.endAddress

/-- The values of an entry; the number is not stored. -/
def toValues (o : ObjectEntry) : List Value :=
  [o.virtualSize, o.base, o.flags, o.firstPage, o.pageCount, o.reserved].map .unsigned

/-- The entry with a number and the given values. -/
def ofValues? (number : Nat) : List Value → Option ObjectEntry
  | [.unsigned virtualSize, .unsigned base, .unsigned flags, .unsigned firstPage,
      .unsigned pageCount, .unsigned reserved] =>
    some { number, virtualSize, base, flags, firstPage, pageCount, reserved }
  | _ => none

/-- The entries of an object table, and the offset behind it. -/
def readTable (source : Source) (offset count : Int) :
    Except Error (List ObjectEntry × Int) := do
  let records ← source.unpackMany layout offset count
  match (records.zipIdx 1).mapM fun (values, number) => ofValues? number values with
  | some objects => return (objects, offset + count * layout.size)
  | none => throw .malformed

end ObjectEntry

end LinearExecutable
