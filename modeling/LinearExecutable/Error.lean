import LinearExecutable.Text.Numeral
import LinearExecutable.Text.Quoted

/-!
# What can go wrong

One type for every failure of the library, by cause. `Error.message` is the only place that words
them. The last group of constructors names failures that a decoded module never meets; they exist
so that this can be stated.
-/

namespace LinearExecutable

open Text (hex hexPadded quoted)

/-- Why no module header is found where one is expected. -/
inductive MissingHeader where
  /-- The bytes at the offset are no signature. -/
  | noSignature (offset : Int)
  /-- A DOS program whose header leads to no known signature. -/
  | plainProgram (path : String)
  /-- Neither a DOS program nor a module. -/
  | unknownFile (path : String)
  deriving DecidableEq, Repr

/-- Why a header, or the flags of a page, are not usable. -/
inductive FormatFault where
  /-- An ordering byte that is neither zero nor one. -/
  | unknownOrdering (bytes words : Nat)
  /-- Bytes and words in different orders. -/
  | mixedOrdering
  | pageSize (size : Nat)
  | lastPageSize (size full : Nat)
  | pageShift (shift : Nat)
  /-- A header field that points past the end of the file. -/
  | pastEnd (field : String) (value : Nat)
  | pageFlags (page flags : Nat)
  deriving DecidableEq, Repr

/-- Which read ran out of bytes. -/
inductive Truncation where
  /-- A window of `size` bytes at `offset` in a source of `length` bytes. -/
  | window (size offset : Int) (length : Nat)
  /-- The repetition record at `offset` of an iterated page. -/
  | iterated (offset : Nat)
  deriving DecidableEq, Repr

/-- How tables that are fine on their own disagree. -/
inductive LayoutFault where
  | absentTable (name : String) (entries : Nat)
  | negativeFixups (page : Int)
  /-- The fixup records of a page end before they start. -/
  | descendingFixups (page start stop : Nat)
  | absentFixupRecords
  /-- An object uses pages that the page table does not have. -/
  | missingPages (object first last pages : Nat)
  /-- An object does not start where the one before it ends. -/
  | pageGap (object first expected : Nat)
  /-- Pages at the end of the page table that no object uses. -/
  | ownerlessPages (first last : Nat)
  | physicalPageZero (page : Nat)
  deriving DecidableEq, Repr

/-- Why a fixup record cannot be decoded. -/
inductive FixupFault where
  | undefinedKind (kind : Nat)
  | alias (kind : Nat)
  | chainedKind
  | chainedTarget
  | chainedList
  /-- The fields of the record at `start` need `excess` bytes more than the page has. -/
  | overrun (start excess : Int)
  /-- A cause given in words. -/
  | stated (text : String)
  deriving DecidableEq, Repr

/-- A fixup record that cannot be decoded: the cause, and as much as is known about the record. -/
structure UnsupportedFixup where
  fault : FixupFault
  source? : Option Int
  flags? : Option Int
  page? : Option Int
  offset? : Option Int
  deriving DecidableEq, Repr

/-- How a chain of fixups fails to end within its page. -/
inductive ChainFault where
  | tooLong (limit : Int)
  | outside (offset : Int)
  deriving DecidableEq, Repr

/-- A chain that does not end within its page: where it starts and how it fails. -/
structure ChainOverflow where
  fault : ChainFault
  page : Int
  head : Int
  deriving DecidableEq, Repr

/-- Everything that can go wrong, by cause. -/
inductive Error where
  | noDosHeader
  | noHeader (cause : MissingHeader)
  | format (fault : FormatFault)
  | truncated (cause : Truncation)
  | layout (fault : LayoutFault)
  | unsupportedFixup (fixup : UnsupportedFixup)
  | chainOverflow (overflow : ChainOverflow)
  | noObject (number : Int)
  | noPage (number : Int)
  /-- An address that no object contains; a module names its file. -/
  | invalidAddress (path? : Option String) (address : Int)
  | invalidRead (path : String) (size address : Int)
  /-- A kind of executable, or an operation, that is not there. -/
  | notImplemented (what : String)
  | byteOrder (symbol : String)
  | undefinedKind (kind : Nat)
  | notChainHead
  | noSourceOffset
  /-- A repeated layout that has no bytes. -/
  | emptyLayout
  /-- A layout written without any character. -/
  | blankLayout
  /-- A written layout that has more bytes than a record can have. -/
  | oversizedLayout
  | invalidString (address : Int)
  /-- Fields that run past the end of a page's records, before a record is named. -/
  | pageOverrun (excess : Int)
  /-- A structure whose bytes or values do not have the expected shape. -/
  | malformed
  deriving DecidableEq, Repr

def MissingHeader.message : MissingHeader → String
  | .noSignature offset => s!"No LX/LE/LC signature at 0x{hex offset}"
  | .plainProgram path => s!"{path}: DOS program without a linear executable header"
  | .unknownFile path => s!"{path}: unknown file format"

def FormatFault.message : FormatFault → String
  | .unknownOrdering bytes words => s!"Unknown byte/word ordering {bytes}/{words}"
  | .mixedOrdering => "Mixed byte and word ordering is not supported"
  | .pageSize size => s!"Page size {size} is not a power of two"
  | .lastPageSize size full => s!"Last page holds {size} bytes but pages are {full} bytes"
  | .pageShift shift => s!"Page offset shift {shift} is too large"
  | .pastEnd field value => s!"{field} 0x{hex value} points past the end of the file"
  | .pageFlags page flags => s!"Page {page} has unknown flags 0x{hex flags}"

def Truncation.message : Truncation → String
  | .window size offset length =>
    s!"Cannot read {size} bytes at 0x{hex offset}: source is 0x{hex length} bytes"
  | .iterated offset => s!"Iterated data record at 0x{hex offset} is truncated"

def LayoutFault.message : LayoutFault → String
  | .absentTable name entries => s!"{name} is absent but {entries} entries are declared"
  | .negativeFixups page => s!"Page {page} has a negative fixup record length"
  | .descendingFixups page start stop =>
    s!"Fixup records for page {page} end before they start: 0x{hex start} > 0x{hex stop}"
  | .absentFixupRecords => "Fixup record table is absent but the fixup page table is not empty"
  | .missingPages object first last pages =>
    s!"Object {object} uses pages {first}-{last} but the page table has {pages} entries"
  | .pageGap object first expected =>
    s!"Object {object} starts at page {first}; expected page {expected}"
  | .ownerlessPages first last => s!"Pages {first}-{last} do not belong to any object"
  | .physicalPageZero page => s!"Page {page} refers to physical page 0"

def FixupFault.message : FixupFault → String
  | .undefinedKind kind => s!"Undefined fixup source type 0x{hex kind}"
  | .alias kind => s!"Alias flag set on source type 0x{hex kind}"
  | .chainedKind => "Chained fixup must be a 32-bit offset fixup"
  | .chainedTarget => "Chained fixup must have an internal target"
  | .chainedList => "Chained fixup cannot have a source list"
  | .overrun start excess =>
    s!"Fixup record at 0x{hex start} runs {excess} bytes past the end of the page's records"
  | .stated text => text

/-- A byte of a record in two hexadecimal digits, or question marks if it was not read. -/
def UnsupportedFixup.byteText : Option Int → String
  | none => "??"
  | some byte => hexPadded 2 byte

/-- The cause, the two bytes that select the form of the record, and the page. -/
def UnsupportedFixup.message (e : UnsupportedFixup) : String :=
  let flags := byteText e.source? ++ ":" ++ byteText e.flags?
  let place := match e.page? with
    | none => ""
    | some page => s!" (page {page})"
  s!"{e.fault.message} [src:flags {flags}]{place}"

def ChainOverflow.message (e : ChainOverflow) : String :=
  match e.fault with
  | .tooLong limit => s!"Fixup chain at 0x{hex e.head} has more than {limit} links"
  | .outside offset =>
    s!"Fixup chain at 0x{hex e.head} has a link at 0x{hex offset} outside the page"

/-- The text of a failure; some failures have none. -/
def Error.message : Error → String
  | .noDosHeader => ""
  | .noHeader cause => cause.message
  | .format fault => fault.message
  | .truncated cause => cause.message
  | .layout fault => fault.message
  | .unsupportedFixup fixup => fixup.message
  | .chainOverflow overflow => overflow.message
  | .noObject number => toString number
  | .noPage number => s!"There is no logical page {number}"
  | .invalidAddress none address => s!"0x{hex address}"
  | .invalidAddress (some path) address => s!"{path} : 0x{hex address}"
  | .invalidRead path size address => s!"{path} : Cannot read {size} bytes from 0x{hex address}"
  | .notImplemented what => what
  | .byteOrder symbol => s!"Unsupported byte order {quoted symbol}"
  | .undefinedKind kind => s!"{kind} is not a valid FixupSourceType"
  | .notChainHead => "Record is not the head of a fixup chain"
  | .noSourceOffset => "tuple index out of range"
  | .emptyLayout => "cannot iteratively unpack with a struct of length 0"
  | .blankLayout => "string index out of range"
  | .oversizedLayout => "total struct size too long"
  | .invalidString address => s!"Cannot read widechar string at {hex address}"
  | .pageOverrun excess => toString excess
  | .malformed => ""

/-- The failures of decoding: what a file that is not a proper module leads to. -/
def Error.isDecodeError : Error → Bool
  | .noDosHeader | .noHeader _ | .format _ | .truncated _ | .layout _ | .unsupportedFixup _
  | .chainOverflow _ => true
  | _ => false

end LinearExecutable
