import LinearExecutable.Bytes.Source

/-!
# The module header

The header of a linear executable has 0xB0 bytes. Its first four say in which order its words are
spelled; the rest are words that size and place the tables of the module. A header is accepted when
its page size is a power of two, the field whose meaning depends on the signature is in range, and
no table starts past the end of the file.
-/

namespace LinearExecutable

/-- The three formats that share the header. -/
inductive Signature where
  | lx
  | le
  /-- Compressed LX. -/
  | lc
  deriving DecidableEq, Repr

namespace Signature

def toBytes : Signature → List UInt8
  | .lx => [0x4c, 0x58]
  | .le => [0x4c, 0x45]
  | .lc => [0x4c, 0x43]

def ofBytes? (bytes : List UInt8) : Option Signature :=
  [lx, le, lc].find? fun signature => signature.toBytes = bytes

def name : Signature → String
  | .lx => "LX"
  | .le => "LE"
  | .lc => "LC"

end Signature

/-- The two forms of a page table entry. -/
inductive PageForm where
  /-- Four bytes: the number of a physical page and a kind. -/
  | le
  /-- Eight bytes: an offset, a size and a kind. -/
  | lx
  deriving DecidableEq, Repr

/-- The number of bytes of a page table entry. -/
def PageForm.entrySize : PageForm → Nat
  | .le => 4
  | .lx => 8

def PageForm.name : PageForm → String
  | .le => "LE"
  | .lx => "LX"

/-- The header of a module, field by field. Tables are given by the offsets where they start. -/
structure Header where
  signature : Signature
  order : ByteOrder
  formatLevel : Nat
  cpuType : Nat
  osType : Nat
  moduleVersion : Nat
  moduleFlags : Nat
  pageCount : Nat
  entryObject : Nat
  entryOffset : Nat
  stackObject : Nat
  stackOffset : Nat
  pageSize : Nat
  /-- The page offset shift; in an LE module the number of bytes on the last physical page. -/
  shiftOrLastSize : Nat
  fixupSectionSize : Nat
  fixupSectionChecksum : Nat
  loaderSectionSize : Nat
  loaderSectionChecksum : Nat
  objectTable : Nat
  objectCount : Nat
  objectPageTable : Nat
  iteratedPages : Nat
  resourceTable : Nat
  resourceCount : Nat
  residentNameTable : Nat
  entryTable : Nat
  moduleDirectives : Nat
  moduleDirectiveCount : Nat
  fixupPageTable : Nat
  fixupRecordTable : Nat
  importModuleTable : Nat
  importModuleCount : Nat
  importProcedureTable : Nat
  pageChecksums : Nat
  dataPages : Nat
  preloadPageCount : Nat
  nonResidentNameTable : Nat
  nonResidentNameLength : Nat
  nonResidentNameChecksum : Nat
  autoDataObject : Nat
  debugInfo : Nat
  debugInfoLength : Nat
  instancePreloadCount : Nat
  instanceDemandCount : Nat
  heapSize : Nat
  stackSize : Nat
  deriving DecidableEq, Repr

namespace Header

/-- The words behind the two ordering bytes. -/
def wordLayout : Layout := [.unsigned 1 4, .unsigned 2 2, .unsigned 41 4]

/-- The signature, the two ordering bytes and the words. -/
def layout : Layout := .text 2 :: .unsigned 2 1 :: wordLayout

/-- The number of bytes of a header: 0xB0. -/
def size : Nat := layout.size

/-- The byte that stands twice in a header for an order. -/
def orderingByte : ByteOrder → Nat
  | .little => 0
  | .big => 1

/-- The words behind the ordering bytes, in the order of the file. -/
def toWords (h : Header) : List Nat :=
  [h.formatLevel, h.cpuType, h.osType, h.moduleVersion, h.moduleFlags, h.pageCount, h.entryObject,
    h.entryOffset, h.stackObject, h.stackOffset, h.pageSize, h.shiftOrLastSize,
    h.fixupSectionSize, h.fixupSectionChecksum, h.loaderSectionSize, h.loaderSectionChecksum,
    h.objectTable, h.objectCount, h.objectPageTable, h.iteratedPages, h.resourceTable,
    h.resourceCount, h.residentNameTable, h.entryTable, h.moduleDirectives,
    h.moduleDirectiveCount, h.fixupPageTable, h.fixupRecordTable, h.importModuleTable,
    h.importModuleCount, h.importProcedureTable, h.pageChecksums, h.dataPages, h.preloadPageCount,
    h.nonResidentNameTable, h.nonResidentNameLength, h.nonResidentNameChecksum, h.autoDataObject,
    h.debugInfo, h.debugInfoLength, h.instancePreloadCount, h.instanceDemandCount, h.heapSize,
    h.stackSize]

/-- The header with the given words behind the ordering bytes. -/
def ofWords? (signature : Signature) (order : ByteOrder) : List Nat → Option Header
  | formatLevel :: cpuType :: osType :: moduleVersion :: moduleFlags :: pageCount :: entryObject ::
      entryOffset :: stackObject :: stackOffset :: pageSize :: shiftOrLastSize ::
      fixupSectionSize :: fixupSectionChecksum :: loaderSectionSize :: loaderSectionChecksum ::
      objectTable :: objectCount :: objectPageTable :: iteratedPages :: resourceTable ::
      resourceCount :: residentNameTable :: entryTable :: moduleDirectives ::
      moduleDirectiveCount :: fixupPageTable :: fixupRecordTable :: importModuleTable ::
      importModuleCount :: importProcedureTable :: pageChecksums :: dataPages ::
      preloadPageCount :: nonResidentNameTable :: nonResidentNameLength ::
      nonResidentNameChecksum :: autoDataObject :: debugInfo :: debugInfoLength ::
      instancePreloadCount :: instanceDemandCount :: heapSize :: stackSize :: [] =>
    some {
      signature, order, formatLevel, cpuType, osType, moduleVersion, moduleFlags, pageCount,
      entryObject, entryOffset, stackObject, stackOffset, pageSize, shiftOrLastSize,
      fixupSectionSize, fixupSectionChecksum, loaderSectionSize, loaderSectionChecksum,
      objectTable, objectCount, objectPageTable, iteratedPages, resourceTable,
      resourceCount, residentNameTable, entryTable, moduleDirectives,
      moduleDirectiveCount, fixupPageTable, fixupRecordTable, importModuleTable,
      importModuleCount, importProcedureTable, pageChecksums, dataPages, preloadPageCount,
      nonResidentNameTable, nonResidentNameLength, nonResidentNameChecksum, autoDataObject,
      debugInfo, debugInfoLength, instancePreloadCount, instanceDemandCount, heapSize,
      stackSize }
  | _ => none

@[simp] theorem ofWords?_toWords (h : Header) : ofWords? h.signature h.order h.toWords = some h :=
  rfl

/-- The values of a header, from the signature to the last word. -/
def toValues (h : Header) : List Value :=
  .bytes h.signature.toBytes :: .unsigned (orderingByte h.order) ::
    .unsigned (orderingByte h.order) :: h.toWords.map .unsigned

/-- The bytes of a header, its words in its own order. -/
def encode (h : Header) : List UInt8 :=
  layout.encode h.order h.toValues

/-! ## What the signature decides -/

/-- The form of the page table entries of a module. -/
def pageForm (h : Header) : PageForm :=
  if h.signature = .le then .le else .lx

/-- The shift of the offsets in a page table; LE modules have none. -/
def pageShift (h : Header) : Nat :=
  if h.signature = .le then 0 else h.shiftOrLastSize

/-- The number of bytes on the last physical page; only LE modules give it. -/
def lastPageSize (h : Header) : Nat :=
  if h.signature = .le then h.shiftOrLastSize else 0

/-! ## Acceptance -/

/-- The fields that hold offsets from the start of the header, with their names. -/
def relativeOffsets (h : Header) : List (String × Nat) :=
  [("object_table_off", h.objectTable),
    ("object_page_table_offset", h.objectPageTable),
    ("resource_table_off", h.resourceTable),
    ("resident_name_table_offset", h.residentNameTable),
    ("entry_table_offset", h.entryTable),
    ("module_directives_offset", h.moduleDirectives),
    ("fixup_page_table_offset", h.fixupPageTable),
    ("fixup_record_table_offset", h.fixupRecordTable),
    ("import_module_table_offset", h.importModuleTable),
    ("import_procedure_table_offset", h.importProcedureTable),
    ("per_page_checksum_offset", h.pageChecksums)]

/-- The fields that hold offsets from the start of the file, with their names. -/
def fileOffsets (h : Header) : List (String × Nat) :=
  [("object_iter_pages_off", h.iteratedPages),
    ("data_pages_offset", h.dataPages),
    ("non_resident_name_table_offset", h.nonResidentNameTable),
    ("debug_info_offset", h.debugInfo)]

/-- The first of the given fields that is present and, counted from `base`, points past the end of
a file of `fileSize` bytes. -/
def pastEnd? (base : Int) (fileSize : Nat) (fields : List (String × Nat)) : Option FormatFault :=
  fields.findSome? fun (name, value) =>
    if value ≠ 0 ∧ fileSize < base + value then some (.pastEnd name value) else none

/-- A page size is a power of two. -/
def pageSizeFault? (h : Header) : Option FormatFault :=
  if h.pageSize ≠ 0 ∧ 1 <<< h.pageSize.log2 = h.pageSize then none else some (.pageSize h.pageSize)

/-- The last page holds at most a page; a shift stays below the width of an offset. -/
def shiftFault? (h : Header) : Option FormatFault :=
  if h.signature = .le then
    if h.pageSize < h.shiftOrLastSize then some (.lastPageSize h.shiftOrLastSize h.pageSize)
    else none
  else if 32 ≤ h.shiftOrLastSize then some (.pageShift h.shiftOrLastSize)
  else none

/-- The first reason not to accept a header at an offset of a file. -/
def fault? (h : Header) (fileSize : Nat) (offset : Int) : Option FormatFault :=
  h.pageSizeFault?
    <|> h.shiftFault?
    <|> pastEnd? offset fileSize h.relativeOffsets
    <|> pastEnd? 0 fileSize h.fileOffsets

/-- The order of the words of a header, from its two ordering bytes. -/
def orderOf (bytes words : Nat) : Except Error ByteOrder :=
  if 1 < bytes ∨ 1 < words then .error (.format (.unknownOrdering bytes words))
  else if bytes ≠ words then .error (.format .mixedOrdering)
  else .ok (if bytes = 0 then .little else .big)

/-- The order of the words of the header at an offset. -/
def readOrder (source : Source) (offset : Int) : Except Error ByteOrder := do
  match ← source.unpack [.unsigned 2 1] (offset + 2) with
  | [.unsigned bytes, .unsigned words] => orderOf bytes words
  | _ => throw .malformed

/-- The words of the header at an offset. -/
def readWords (source : Source) (signature : Signature) (offset : Int) : Except Error Header := do
  let words ← source.unpack wordLayout (offset + 4)
  match (words.mapM Value.nat?).bind (ofWords? signature source.order) with
  | some header => return header
  | none => throw .malformed

/-- Whether the signature of a module stands at an offset. -/
def isAt (source : Source) (offset : Int) : Bool :=
  (Signature.ofBytes? (source.signatureAt offset)).isSome

/-- The header at an offset if it is acceptable, and the offset behind it. The order of the source
does not matter. -/
def read (source : Source) (offset : Int) : Except Error (Header × Int) := do
  source.require offset size
  match Signature.ofBytes? (source.signatureAt offset) with
  | none => throw (.noHeader (.noSignature offset))
  | some signature =>
    let order ← readOrder source offset
    let header ← readWords (source.withOrder order) signature offset
    match header.fault? source.size offset with
    | some fault => throw (.format fault)
    | none => return (header, offset + size)

end Header

end LinearExecutable
