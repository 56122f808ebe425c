import LinearExecutable.Fixup.Page
import LinearExecutable.Image.Module
import LinearExecutable.Image.View
import LinearExecutable.Proofs.Tables

/-!
# Laying out a module

A `Blueprint` says what a module consists of. `Blueprint.file` lays it out the way a linker does:
header, object table, page table, resident names, fixup page table, fixup records, names to import
from, and the data of the pages.
-/

namespace LinearExecutable

/-- A page to be laid out: its kind, its data, and the bytes of its fixup records. -/
structure PageSpec where
  kind : PageKind
  data : List UInt8
  fixups : List UInt8
  deriving DecidableEq, Repr

/-- An object to be laid out. -/
structure ObjectSpec where
  base : Nat
  virtualSize : Nat
  flags : Nat
  pages : List PageSpec
  deriving DecidableEq, Repr

/-- A module to be laid out. -/
structure Blueprint where
  signature : Signature
  order : ByteOrder
  pageSize : Nat
  /-- The shift of the offsets in the page table; LE modules have no use for it. -/
  pageShift : Nat
  /-- The bytes in front of the header. -/
  stub : List UInt8
  objects : List ObjectSpec
  importModules : List String
  /-- The bytes of the import procedure table. -/
  importProcedures : List UInt8
  residentNames : List ResidentName
  deriving DecidableEq, Repr

/-- The bytes of a name that consists of ASCII characters. -/
def asciiBytes (name : String) : List UInt8 :=
  name.toList.map fun c => UInt8.ofNat c.toNat

/-! ## 1. Pages -/

namespace PageSpec

/-- The page has data in the file. -/
def hasData (page : PageSpec) : Bool := page.kind.hasData

/-- The page, or one of those behind it, has data in the file. -/
def someData (pages : List PageSpec) : Bool := pages.any hasData

end PageSpec

/-- A page that has its place: what the page table says, and the bytes it adds to the file. -/
structure Placed where
  kind : PageKind
  offset : Nat
  size : Nat
  /-- The number of zeros in front of the bytes of the page. -/
  gap : Nat
  bytes : List UInt8
  deriving DecidableEq, Repr

namespace Placed

/-- What the page table stores. -/
def stored (page : Placed) : PageEntry.Stored :=
  ⟨page.offset, page.size, page.kind.code⟩

/-- The bytes that the page adds to the file. -/
def spelled (page : Placed) : List UInt8 :=
  List.replicate page.gap 0 ++ page.bytes

/-- A page without data. -/
def absent (kind : PageKind) : Placed :=
  ⟨kind, 0, 0, 0, []⟩

end Placed

namespace Blueprint

/-- The next multiple of an alignment. -/
def roundUp (alignment n : Nat) : Nat :=
  (n + (alignment - 1)) / alignment * alignment

/-- Places LX pages behind `laid` bytes of page data: each starts at a multiple of the alignment
that the shift stands for. -/
def placeLX (shift : Nat) : Nat → List PageSpec → List Placed
  | _, [] => []
  | laid, page :: rest =>
    if page.hasData then
      let start := roundUp (1 <<< shift) laid
      ⟨page.kind, start >>> shift, page.data.length, start - laid, page.data⟩ ::
        placeLX shift (start + page.data.length) rest
    else .absent page.kind :: placeLX shift laid rest

/-- Places LE pages behind `physical` physical pages: each is filled up with zeros, but for the
last one. -/
def placeLE (pageSize : Nat) : Nat → List PageSpec → List Placed
  | _, [] => []
  | physical, page :: rest =>
    if page.hasData then
      let bytes :=
        if PageSpec.someData rest then
          page.data ++ List.replicate (pageSize - page.data.length) 0
        else page.data
      ⟨page.kind, physical + 1, 0, 0, bytes⟩ :: placeLE pageSize (physical + 1) rest
    else .absent page.kind :: placeLE pageSize physical rest

/-- The pages of a module, object by object. -/
def pages (b : Blueprint) : List PageSpec := b.objects.flatMap ObjectSpec.pages

/-- The pages of a module that have data. -/
def dataPages (b : Blueprint) : List PageSpec := b.pages.filter PageSpec.hasData

/-- The pages of a module, each at its place. -/
def placed (b : Blueprint) : List Placed :=
  match b.signature with
  | .le => placeLE b.pageSize 0 b.pages
  | .lx | .lc => placeLX b.pageShift 0 b.pages

/-- The number of bytes on the last physical page, or zero. -/
def lastPageSize (b : Blueprint) : Nat :=
  match b.dataPages.getLast? with
  | some page => page.data.length
  | none => 0

/-- The form of the page table entries. -/
def pageForm (b : Blueprint) : PageForm :=
  if b.signature = .le then .le else .lx

/-! ## 2. Tables -/

/-- The entries of the objects from a number on; the pages of the first one start at `first`. -/
def entriesFrom : Nat → Nat → List ObjectSpec → List ObjectEntry
  | _, _, [] => []
  | number, first, o :: rest =>
    { number, virtualSize := o.virtualSize, base := o.base, flags := o.flags, firstPage := first
      pageCount := o.pages.length, reserved := 0 } ::
        entriesFrom (number + 1) (first + o.pages.length) rest

def objectEntries (b : Blueprint) : List ObjectEntry := entriesFrom 1 1 b.objects

def objectTable (b : Blueprint) : List UInt8 := b.objectEntries.flatMap (ObjectEntry.encode b.order)

def pageTable (b : Blueprint) : List UInt8 :=
  b.placed.flatMap fun page => page.stored.encode b.order b.pageForm

/-- The resident names with an empty one behind them; without names there is no table. -/
def residentTable (b : Blueprint) : List UInt8 :=
  if b.residentNames = [] then []
  else b.residentNames.flatMap
    (fun r => ResidentName.encode b.order (asciiBytes r.name) r.ordinal) ++ [0]

/-- Where the fixup records of the pages start, and where those of the last one end. -/
def startsFrom : Nat → List PageSpec → List Nat
  | start, [] => [start]
  | start, page :: rest => start :: startsFrom (start + page.fixups.length) rest

def fixupStarts (b : Blueprint) : List Nat := startsFrom 0 b.pages

def fixupPageTable (b : Blueprint) : List UInt8 := b.fixupStarts.flatMap (b.order.wordBytes 4)

def fixupRecords (b : Blueprint) : List UInt8 := b.pages.flatMap PageSpec.fixups

def importTable (b : Blueprint) : List UInt8 :=
  b.importModules.flatMap fun name => countedName (asciiBytes name)

def pageData (b : Blueprint) : List UInt8 := b.placed.flatMap Placed.spelled

/-! ## 3. Header and file -/

def pageTableAt (b : Blueprint) : Nat := Header.size + b.objectTable.length

def residentAt (b : Blueprint) : Nat := b.pageTableAt + b.pageTable.length

def fixupPageTableAt (b : Blueprint) : Nat := b.residentAt + b.residentTable.length

def fixupRecordsAt (b : Blueprint) : Nat := b.fixupPageTableAt + b.fixupPageTable.length

def importTableAt (b : Blueprint) : Nat := b.fixupRecordsAt + b.fixupRecords.length

def proceduresAt (b : Blueprint) : Nat := b.importTableAt + b.importTable.length

/-- Where the data of the pages start, counted from the start of the file. -/
def pageDataAt (b : Blueprint) : Nat :=
  b.stub.length + b.proceduresAt + b.importProcedures.length

def header (b : Blueprint) : Header where
  signature := b.signature
  order := b.order
  formatLevel := 0
  cpuType := 2
  osType := if b.signature = .le then 4 else 1
  moduleVersion := 0
  moduleFlags := 0
  pageCount := b.pages.length
  entryObject := 0
  entryOffset := 0
  stackObject := 0
  stackOffset := 0
  pageSize := b.pageSize
  shiftOrLastSize := if b.signature = .le then b.lastPageSize else b.pageShift
  fixupSectionSize := b.fixupPageTable.length + b.fixupRecords.length
  fixupSectionChecksum := 0
  loaderSectionSize := 0
  loaderSectionChecksum := 0
  objectTable := Header.size
  objectCount := b.objects.length
  objectPageTable := b.pageTableAt
  iteratedPages := 0
  resourceTable := 0
  resourceCount := 0
  residentNameTable := if b.residentNames = [] then 0 else b.residentAt
  entryTable := 0
  moduleDirectives := 0
  moduleDirectiveCount := 0
  fixupPageTable := b.fixupPageTableAt
  fixupRecordTable := b.fixupRecordsAt
  importModuleTable := b.importTableAt
  importModuleCount := b.importModules.length
  importProcedureTable := b.proceduresAt
  pageChecksums := 0
  dataPages := b.pageDataAt
  preloadPageCount := 0
  nonResidentNameTable := 0
  nonResidentNameLength := 0
  nonResidentNameChecksum := 0
  autoDataObject := 0
  debugInfo := 0
  debugInfoLength := 0
  instancePreloadCount := 0
  instanceDemandCount := 0
  heapSize := 0
  stackSize := 0

/-- The bytes of the module, the stub in front included. -/
def file (b : Blueprint) : List UInt8 :=
  b.stub ++ (b.header.encode ++ (b.objectTable ++ (b.pageTable ++ (b.residentTable ++
    (b.fixupPageTable ++ (b.fixupRecords ++ (b.importTable ++ (b.importProcedures ++
      b.pageData))))))))

/-- The file as a source; the order it is read in does not matter. -/
def source (b : Blueprint) (order : ByteOrder) : Source := ⟨⟨b.file.toArray⟩, order⟩

/-! ## 4. Blueprints that can be laid out -/

/-- The fixup records of a page on their own. -/
def recordsOf (order : ByteOrder) (page : PageSpec) : Except Error (List Fixup.Record) :=
  (Fixup.decodeRange ⟨⟨page.fixups.toArray⟩, order⟩ 0 page.fixups.length 0).strict

/-- A name with its length in front stands at an offset of the import procedure table. -/
def NamedAt (b : Blueprint) (offset : Int) (name : List UInt8) : Prop :=
  name.length < 256 ∧ ∃ before after,
    b.importProcedures = before ++ countedName name ++ after ∧ (before.length : Int) = offset

/-- A name of at most 255 ASCII characters. -/
def IsName (name : String) : Prop :=
  (∀ c ∈ name.toList, c.toNat < 128) ∧ name.length < 256

/-- Everything fits its field, the fixup records of every page can be decoded, and the names that
they import are there. -/
structure Buildable (b : Blueprint) : Prop where
  pageSize : ∃ k < 32, b.pageSize = 1 <<< k
  pageShift : b.pageShift < 32
  objects : ∀ o ∈ b.objects,
    o.base < Word.bound 4 ∧ o.virtualSize < Word.bound 4 ∧ o.flags < Word.bound 4
  lxData : b.signature ≠ .le → ∀ page ∈ b.dataPages, page.data.length < Word.bound 2
  lxOffsets : b.signature ≠ .le → ∀ page ∈ b.placed, page.offset < Word.bound 4
  leData : b.signature = .le → ∀ page ∈ b.dataPages, page.data.length ≤ b.pageSize
  leLast : b.signature = .le → ∀ page, b.dataPages.getLast? = some page → page.data ≠ []
  leCount : b.signature = .le → b.dataPages.length < 0x1000000
  pageDataAt : b.pageDataAt < Word.bound 4
  fixups : ∀ page ∈ b.pages, ∃ records, recordsOf b.order page = .ok records
  importModules : ∀ name ∈ b.importModules, IsName name
  residentNames : ∀ r ∈ b.residentNames, IsName r.name ∧ r.name ≠ "" ∧ r.ordinal < Word.bound 2
  importProcedures : ∀ page ∈ b.pages, ∀ records, recordsOf b.order page = .ok records →
    ∀ r ∈ records, ∀ offset, r.target.nameOffset? = some offset → ∃ name, b.NamedAt offset name

/-- A module of two objects and three pages; its first page imports a procedure by name. -/
def sample : Blueprint where
  signature := .lx
  order := .little
  pageSize := 16
  pageShift := 2
  stub := [0x4d, 0x5a, 0]
  objects := [
    ⟨0x10000, 40, 5, [
      ⟨.legal, [7, 8], [0x07, 0x02, 0, 0, 1, 1, 0]⟩,
      ⟨.iterated, [2, 0, 3, 0, 5, 6, 7], []⟩]⟩,
    ⟨0x20000, 16, 3, [⟨.zeroFilled, [], []⟩]⟩]
  importModules := ["DOSCALLS"]
  importProcedures := [0, 3, 0x41, 0x42, 0x43]
  residentNames := [⟨"SAMPLE", 0⟩, ⟨"START", 1⟩]

/-- The record of the first page. -/
def sampleRecord : Fixup.Record :=
  ⟨⟨0x07, 0x02⟩, [0], .byName 1 1, none, 7⟩

/-! ## 5. What its parts come to -/

/-- The bytes that the pages hold in the file: an LE page with data behind it is filled up to the
page size. -/
def storedBytes (b : Blueprint) : List PageSpec → List (List UInt8)
  | [] => []
  | page :: rest =>
    (if page.hasData then
      if b.signature = .le ∧ PageSpec.someData rest then
        page.data ++ List.replicate (b.pageSize - page.data.length) 0
      else page.data
    else []) :: storedBytes b rest

theorem length_entriesFrom (number first : Nat) (objects : List ObjectSpec) :
    (entriesFrom number first objects).length = objects.length := by
  induction objects generalizing number first with
  | nil => rfl
  | cons o objects ih => rw [entriesFrom, List.length_cons, List.length_cons, ih]

theorem number_entriesFrom (number first : Nat) (objects : List ObjectSpec) :
    (entriesFrom number first objects).map ObjectEntry.number =
      List.range' number objects.length := by
  induction objects generalizing number first with
  | nil => rfl
  | cons o objects ih => rw [entriesFrom, List.map_cons, ih, List.length_cons, List.range'_succ]

/-- The objects own their pages one behind the other. -/
theorem pageNumbers_entriesFrom (number first : Nat) (objects : List ObjectSpec) :
    (entriesFrom number first objects).flatMap ObjectEntry.pageNumbers =
      List.range' first (objects.flatMap ObjectSpec.pages).length := by
  induction objects generalizing number first with
  | nil => rfl
  | cons o objects ih =>
    rw [entriesFrom, List.flatMap_cons, List.flatMap_cons, List.length_append, ih,
      ObjectEntry.pageNumbers, List.range'_append_1]

end Blueprint

end LinearExecutable
