import LinearExecutable.Image.Module

/-!
# Decoding a module

A module is decoded in stages: header, object table and page table; fixups; ownership of the pages;
page data; names. The first stage that fails decides the failure. `ModuleImage.decodeLog` tells what
the same stages report.
-/

namespace LinearExecutable

open Fixup (Effort PageFixups)

/-- The header of a module and the two tables that the later stages need. -/
structure Tables where
  /-- The file, read in the order of the module. -/
  source : Source
  /-- Where the header is. -/
  offset : Int
  header : Header
  objects : List ObjectEntry
  pageTable : List PageEntry

/-- Where a table stands that the header places relative to itself. A table that is absent cannot
have entries. -/
def tableOffset (header : Int) (table entries : Nat) (name : String) : Except Error Int :=
  if entries ≠ 0 ∧ table = 0 then .error (.layout (.absentTable name entries))
  else .ok (header + table)

namespace Tables

/-- Reads the header at an offset and the object and page tables. -/
def read (file : Source) (offset : Int) : Except Error Tables := do
  let (header, _) ← Header.read file offset
  let source := file.withOrder header.order
  let objectTable ← tableOffset offset header.objectTable header.objectCount "Object table"
  let (objects, _) ← ObjectEntry.readTable source objectTable header.objectCount
  let pages ← tableOffset offset header.objectPageTable header.pageCount "Object page table"
  let (pageTable, _) ← PageEntry.readTable source pages header.pageCount header.pageForm
    header.pageSize header.lastPageSize
  return { source, offset, header, objects, pageTable }

/-! ## Fixups -/

/-- Reads the fixup page table, if there is one. -/
def fixupPageTable? (t : Tables) : Except Error (Option (List Nat)) := do
  if t.header.fixupPageTable = 0 then return none
  let offsets ← Fixup.readPageTable t.source (t.offset + t.header.fixupPageTable) t.pageTable.length
  match offsets.getLast? with
  | none => throw .malformed
  | some last =>
    if last ≠ 0 ∧ t.header.fixupRecordTable = 0 then throw (.layout .absentFixupRecords)
    else return some offsets

/-- The outcome of decoding the fixups of each page. -/
def fixupOutcomes (t : Tables) (effort : Effort) (offsets : List Nat) :
    List (Except Error PageFixups) :=
  Fixup.pageOutcomes t.source (t.offset + t.header.fixupRecordTable) (offsets.map Int.ofNat) effort

/-- The fixup page table and the fixups of each page; without a table, pages have none. -/
def fixups (t : Tables) (effort : Effort) : Except Error (List Nat × List PageFixups) := do
  match ← t.fixupPageTable? with
  | none => return ([], t.pageTable.map fun _ => ⟨[], none⟩)
  | some offsets => return (offsets, ← (t.fixupOutcomes effort offsets).mapM id)

/-! ## Ownership of pages -/

/-- Checks that the objects, in order, use the pages from `expected` on one after another. Objects
without pages do not count. -/
def ownershipFault? (pages : Nat) : Nat → List ObjectEntry → Option LayoutFault
  | expected, [] => if expected - 1 = pages then none else some (.ownerlessPages expected pages)
  | expected, o :: rest =>
    if o.pageCount = 0 then ownershipFault? pages expected rest
    else
      let last := o.firstPage + o.pageCount - 1
      if o.firstPage < 1 ∨ pages < last then
        some (.missingPages o.number o.firstPage last pages)
      else if o.firstPage ≠ expected then some (.pageGap o.number o.firstPage expected)
      else ownershipFault? pages (expected + o.pageCount) rest

/-- Checks that the objects together use every page exactly once, in order. -/
def checkOwnership (objects : List ObjectEntry) (pageTable : List PageEntry) :
    Except Error Unit :=
  match ownershipFault? pageTable.length 1 objects with
  | some fault => .error (.layout fault)
  | none => .ok ()

/-! ## Page data -/

/-- Where the data of a page stand in the file, if it has any. -/
def pagePosition? (header : Header) (page : PageEntry) : Except Error (Option Int) :=
  if !page.kind.hasData then .ok none
  else
    match page.form with
    | .le =>
      if page.offset = 0 then .error (.layout (.physicalPageZero page.number))
      else .ok (some (header.dataPages + (page.offset - 1) * header.pageSize))
    | .lx =>
      let area :=
        if page.kind = .iterated ∧ header.iteratedPages ≠ 0 then header.iteratedPages
        else header.dataPages
      .ok (some (area + page.offset <<< header.pageShift))

/-- The bytes of a page. -/
def readPage (t : Tables) (page : PageEntry) : Except Error (List UInt8) := do
  match ← pagePosition? t.header page with
  | none => return []
  | some position => t.source.read position page.size

/-- The bytes of all pages. -/
def pageData (t : Tables) : Except Error (List (List UInt8)) := do
  checkOwnership t.objects t.pageTable
  t.pageTable.mapM t.readPage

/-! ## Names -/

/-- The names of the modules that are imported from. -/
def importModules (t : Tables) : Except Error (List String) := do
  let count := t.header.importModuleCount
  let table ← tableOffset t.offset t.header.importModuleTable count "Import module name table"
  readNames t.source table count

/-- Inserts a number into an ascending list that has it at most once. -/
def insertAscending (i : Int) : List Int → List Int
  | [] => [i]
  | j :: rest =>
    if i < j then i :: j :: rest
    else if i = j then j :: rest
    else j :: insertAscending i rest

/-- The places of the names that imports refer to, ascending. -/
def nameOffsets (fixups : List PageFixups) : List Int :=
  (fixups.flatMap fun page => page.records.filterMap fun r => r.target.nameOffset?).foldr
    insertAscending []

/-- The names that imports refer to by their place in the import procedure table. -/
def importProcedures (t : Tables) (fixups : List PageFixups) :
    Except Error (List (Int × String)) := do
  let offsets := nameOffsets fixups
  let table ← tableOffset t.offset t.header.importProcedureTable offsets.length
    "Import procedure name table"
  offsets.mapM fun nameOffset => do
    let (name, _) ← t.source.readCounted (table + nameOffset)
    return (nameOffset, nameText name)

/-- The resident names; without a table there are none. -/
def residentNames (t : Tables) : Except Error (List ResidentName) :=
  if t.header.residentNameTable = 0 then .ok []
  else ResidentName.readTable t.source (t.offset + t.header.residentNameTable)

end Tables

/-! ## All stages -/

namespace ModuleImage

/-- Decodes the module whose header is at an offset of a file. -/
def decode (file : Source) (offset : Int) (effort : Effort) (path : String)
    (dosHeader? : Option DosHeader) : Except Error ModuleImage := do
  let tables ← Tables.read file offset
  let (fixupPageTable, fixupPages) ← tables.fixups effort
  let pages ← tables.pageData
  let importModules ← tables.importModules
  let importProcedures ← tables.importProcedures fixupPages
  let residentNames ← tables.residentNames
  return {
    path, header := tables.header, headerOffset := offset, dosHeader?
    objects := tables.objects, pageTable := tables.pageTable, fixupPageTable, fixupPages, pages
    importModules, importProcedures, residentNames }

/-- The line that sums up a module once its pages are there. -/
def summaryLine (tables : Tables) (fixupPages : List PageFixups) : LogLine :=
  let header := tables.header
  ⟨.debug, s!"{header.signature.name} module at 0x{Text.hex tables.offset}: " ++
    s!"{tables.objects.length} objects, {tables.pageTable.length} pages, " ++
    s!"{(Fixup.diagnosticsOf fixupPages).length} fixup diagnostics"⟩

/-- What decoding the fixups reports. -/
def fixupLog (tables : Tables) (effort : Effort) : List LogLine :=
  match tables.fixupPageTable? with
  | .ok (some offsets) => Fixup.pagesLog (tables.fixupOutcomes effort offsets)
  | _ => []

/-- What decoding a module reports, whether it fails or not. -/
def decodeLog (file : Source) (offset : Int) (effort : Effort) : List LogLine :=
  match Tables.read file offset with
  | .error _ => []
  | .ok tables =>
    fixupLog tables effort ++
      match tables.fixups effort, tables.pageData with
      | .ok (_, fixupPages), .ok _ => [summaryLine tables fixupPages]
      | _, _ => []

end ModuleImage

end LinearExecutable
