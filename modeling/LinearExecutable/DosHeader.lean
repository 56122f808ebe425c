import LinearExecutable.Bytes.Source

/-!
# The DOS header

A module usually stands behind a small DOS program. Its header, always little-endian, says how large
that program is and where the module header starts.
-/

namespace LinearExecutable

/-- The header of a DOS program, field by field. -/
structure DosHeader where
  lastPageBytes : Nat
  pages : Nat
  relocations : Nat
  headerParagraphs : Nat
  minimumParagraphs : Nat
  maximumParagraphs : Nat
  stackSegment : Nat
  stackPointer : Nat
  checksum : Nat
  instructionPointer : Nat
  codeSegment : Nat
  relocationTable : Nat
  overlay : Nat
  /-- Four reserved words. -/
  reserved : List Nat
  oemId : Nat
  oemInfo : Nat
  /-- Ten reserved words. -/
  reservedTail : List Nat
  /-- Where the header of the module starts. -/
  moduleHeader : Nat
  deriving DecidableEq, Repr

namespace DosHeader

/-- The signature `MZ`. -/
def magic : List UInt8 := [0x4d, 0x5a]

/-- The signature, 29 words of two bytes and one of four. -/
def layout : Layout := [.text 2, .unsigned 29 2, .unsigned 1 4]

def size : Nat := layout.size

/-- Whether the signature of a DOS program stands at an offset. -/
def isAt (source : Source) (offset : Int) : Bool :=
  source.signatureAt offset = magic

/-- The words behind the signature, in the order of the file. -/
def toWords (h : DosHeader) : List Nat :=
  [h.lastPageBytes, h.pages, h.relocations, h.headerParagraphs, h.minimumParagraphs,
    h.maximumParagraphs, h.stackSegment, h.stackPointer, h.checksum, h.instructionPointer,
    h.codeSegment, h.relocationTable, h.overlay] ++ h.reserved ++ [h.oemId, h.oemInfo] ++
    h.reservedTail ++ [h.moduleHeader]

/-- The header with the given words behind the signature. -/
def ofWords? : List Nat → Option DosHeader
  | lastPageBytes :: pages :: relocations :: headerParagraphs :: minimumParagraphs ::
    maximumParagraphs :: stackSegment :: stackPointer :: checksum :: instructionPointer ::
    codeSegment :: relocationTable :: overlay :: r₀ :: r₁ :: r₂ :: r₃ :: oemId :: oemInfo ::
    rest =>
    match rest with
    | [t₀, t₁, t₂, t₃, t₄, t₅, t₆, t₇, t₈, t₉, moduleHeader] =>
      some {
        lastPageBytes, pages, relocations, headerParagraphs, minimumParagraphs,
        maximumParagraphs, stackSegment, stackPointer, checksum, instructionPointer,
        codeSegment, relocationTable, overlay, reserved := [r₀, r₁, r₂, r₃], oemId, oemInfo,
        reservedTail := [t₀, t₁, t₂, t₃, t₄, t₅, t₆, t₇, t₈, t₉], moduleHeader }
    | _ => none
  | _ => none

/-- The bytes of a header. -/
def encode (h : DosHeader) : List UInt8 :=
  layout.encode .little (.bytes magic :: h.toWords.map .unsigned)

/-- The header at an offset, and the offset behind it. -/
def read (source : Source) (offset : Int) : Except Error (DosHeader × Int) := do
  if !isAt source offset then throw .noDosHeader
  match ← (source.withOrder .little).unpack layout offset with
  | .bytes _ :: words =>
    match (words.mapM Value.nat?).bind ofWords? with
    | some header => return (header, offset + size)
    | none => throw .malformed
  | _ => throw .malformed

/-- The size in bytes of the DOS program: pages of 512 bytes, the last of which holds fewer if the
header gives it a size. -/
def stubSize (h : DosHeader) : Nat :=
  if h.pages = 0 then 0
  else (h.pages - 1) * 512 + (if h.lastPageBytes = 0 then 512 else h.lastPageBytes)

end DosHeader

end LinearExecutable
