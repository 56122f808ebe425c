import LinearExecutable.Fixup.Cursor
import LinearExecutable.Fixup.Pool
import LinearExecutable.Log

/-!
# The fixups of the pages

The fixup page table divides the fixup record table among the pages. The records of a page are read
up to the end of its part or to the first one that cannot be decoded. Strict decoding refuses such a
page; best-effort decoding keeps the records in front of the failure and notes a diagnostic.
-/

namespace LinearExecutable.Fixup

/-! ## One page -/

/-- The records of a page up to the first failure, and that failure. -/
structure Decoded where
  records : List Record
  failure? : Option Error
  deriving DecidableEq, Repr

/-- Reads records up to the end or the first failure. -/
def recordsFrom (page : Int) (c : Cursor) : Decoded :=
  if c.remaining ≤ 0 then ⟨[], none⟩
  else
    match _h : decodeRecord page c with
    | .ok record next =>
      let rest := recordsFrom page next
      ⟨record :: rest.records, rest.failure?⟩
    | .error e _ => ⟨[], some e⟩
termination_by c.remaining.toNat
decreasing_by
  have := offset_lt_of_decodeRecord _h
  simp only [Cursor.remaining] at *
  omega

/-- Reads the records in the `length` bytes at an offset. -/
def decodeRange (source : Source) (offset length page : Int) : Decoded :=
  if length < 0 then ⟨[], some (.layout (.negativeFixups page))⟩
  else
    match source.require offset length with
    | .error e => ⟨[], some e⟩
    | .ok () => recordsFrom page ⟨source, offset, offset + length⟩

/-- All records of a page, or the first failure. -/
def Decoded.strict (d : Decoded) : Except Error (List Record) :=
  match d.failure? with
  | none => .ok d.records
  | some e => .error e

/-- A page whose fixup records could not all be decoded, and why. -/
structure Diagnostic where
  page : Int
  error : UnsupportedFixup
  deriving DecidableEq, Repr

/-- The fixups of a page as a module keeps them. -/
structure PageFixups where
  records : List Record
  diagnostic? : Option Diagnostic
  deriving DecidableEq, Repr

/-- What is kept of a page: with best effort, also the records in front of one that cannot be
decoded. -/
def Decoded.keep (d : Decoded) (page : Int) (bestEffort : Bool) : Except Error PageFixups :=
  match d.failure? with
  | none => .ok ⟨d.records, none⟩
  | some (.unsupportedFixup e) =>
    if bestEffort then .ok ⟨d.records, some ⟨page, e⟩⟩ else .error (.unsupportedFixup e)
  | some e => .error e

/-! ## All pages -/

/-- The part of the record table that belongs to a page. -/
structure PageRange where
  page : Nat
  offset : Int
  length : Int
  deriving DecidableEq, Repr

/-- The parts of the pages, from the offsets where they start and the one where the last ends. -/
def pageRanges (table : Int) (offsets : List Int) : List PageRange :=
  ((offsets.zip offsets.tail).zipIdx 1).map fun ((start, stop), page) =>
    ⟨page, table + start, stop - start⟩

def decodePage (source : Source) (bestEffort : Bool) (range : PageRange) :
    Except Error PageFixups :=
  (decodeRange source range.offset range.length range.page).keep range.page bestEffort

/-- How pages are decoded: whether failing pages are kept, and how many pages at a time. -/
structure Effort where
  bestEffort : Bool
  workers? : Option Int
  deriving DecidableEq, Repr

/-- The outcome of every page, in page order. -/
def pageOutcomes (source : Source) (table : Int) (offsets : List Int) (effort : Effort) :
    List (Except Error PageFixups) :=
  Pool.map effort.workers? (decodePage source effort.bestEffort) (pageRanges table offsets)

/-- The fixups of all pages, or the failure of the first page that fails. -/
def decodePages (source : Source) (table : Int) (offsets : List Int) (effort : Effort) :
    Except Error (List PageFixups) :=
  (pageOutcomes source table offsets effort).mapM id

/-- The diagnostics of the pages that have one. -/
def diagnosticsOf (pages : List PageFixups) : List Diagnostic :=
  pages.filterMap PageFixups.diagnostic?

/-- The total number of records. -/
def recordCount (pages : List PageFixups) : Nat :=
  pages.foldl (fun count page => count + page.records.length) 0

/-! ## The fixup page table -/

/-- The first page, counted from `page`, whose records end before they start. -/
def descending? (page : Nat) : List Nat → Option LayoutFault
  | start :: stop :: rest =>
    if stop < start then some (.descendingFixups page start stop)
    else descending? (page + 1) (stop :: rest)
  | _ => none

/-- Where the records of each page start, and where those of the last one end. -/
def readPageTable (source : Source) (offset pages : Int) : Except Error (List Nat) := do
  let entries ← source.unpackMany [.unsigned 1 4] offset (pages + 1)
  match (entries.flatten.mapM Value.nat?) with
  | none => throw .malformed
  | some offsets =>
    match descending? 1 offsets with
    | some fault => throw (.layout fault)
    | none => return offsets

/-! ## Log -/

/-- A warning for a page of which only a part was kept. -/
def PageFixups.warning? (fixups : PageFixups) : Option LogLine :=
  fixups.diagnostic?.map fun d =>
    ⟨.warning, s!"Skipping rest of page {d.page}: {d.error.message}"⟩

/-- What decoding the pages reports: a warning for each page in front of the first failure, and a
total if there is none. -/
def pagesLog (outcomes : List (Except Error PageFixups)) : List LogLine :=
  let kept := (outcomes.takeWhile Except.isOk).filterMap Except.toOption
  let total :=
    if kept.length = outcomes.length then
      [⟨.debug, s!"Decoded {recordCount kept} fixup records on {kept.length} pages"⟩]
    else []
  kept.filterMap PageFixups.warning? ++ total

end LinearExecutable.Fixup
