import LinearExecutable.DosHeader
import LinearExecutable.Header
import LinearExecutable.ObjectTable
import LinearExecutable.PageTable
import LinearExecutable.NameTable
import LinearExecutable.Fixup.Page

/-!
# Decoded modules

A `ModuleImage` holds everything that was decoded from a module; it keeps no reference to the file.
Pages and objects are numbered from one.
-/

namespace LinearExecutable

open Fixup (PageFixups Record Diagnostic)

/-- A decoded module. -/
structure ModuleImage where
  /-- The name of its file, as it is shown. -/
  path : String
  header : Header
  headerOffset : Int
  /-- The header of the DOS program in front of the module. -/
  dosHeader? : Option DosHeader
  objects : List ObjectEntry
  pageTable : List PageEntry
  /-- Where the fixup records of each page start; empty if there is no such table. -/
  fixupPageTable : List Nat
  /-- The fixups of each page. -/
  fixupPages : List PageFixups
  /-- The stored bytes of each page. -/
  pages : List (List UInt8)
  importModules : List String
  /-- The names that imports refer to by their place, in ascending order of place. -/
  importProcedures : List (Int × String)
  residentNames : List ResidentName
  deriving DecidableEq, Repr

namespace ModuleImage

/-- The order of the words of the module. -/
def order (m : ModuleImage) : ByteOrder := m.header.order

/-- The fixup records of each page. -/
def fixups (m : ModuleImage) : List (List Record) := m.fixupPages.map PageFixups.records

/-- The pages whose fixup records could not all be decoded. -/
def diagnostics (m : ModuleImage) : List Diagnostic := Fixup.diagnosticsOf m.fixupPages

def fixupCount (m : ModuleImage) : Nat := Fixup.recordCount m.fixupPages

/-- The name of the module: its first resident name. -/
def moduleName (m : ModuleImage) : String :=
  match m.residentNames with
  | [] => ""
  | first :: _ => first.name

/-- The lowest base of an object, or zero. -/
def imageBase (m : ModuleImage) : Nat :=
  match m.objects.map ObjectEntry.base with
  | [] => 0
  | first :: rest => rest.foldl min first

/-! ## Objects -/

/-- The object with a number. -/
def object (m : ModuleImage) (number : Int) : Except Error ObjectEntry :=
  if 1 ≤ number ∧ number ≤ m.objects.length then
    match m.objects[(number - 1).toNat]? with
    | some o => .ok o
    | none => .error .malformed
  else .error (.noObject number)

/-- Where the module starts to run, if it does. -/
def entry (m : ModuleImage) : Except Error (Option Nat) :=
  if m.header.entryObject = 0 then .ok none
  else (m.object m.header.entryObject).map fun o => some (o.base + m.header.entryOffset)

/-- The part of a list over the pages of the module that belongs to an object. -/
def ofObject {α : Type} (o : ObjectEntry) (perPage : List α) : List α :=
  if o.pageCount = 0 then [] else (perPage.drop (o.firstPage - 1)).take o.pageCount

/-- The page table entries of an object. -/
def objectPageTable (m : ModuleImage) (number : Int) : Except Error (List PageEntry) :=
  (m.object number).map fun o => ofObject o m.pageTable

/-- The kind of the pages of an object that are not in the page table, from the kinds of those that
are: like the last one if that is zero-filled or invalid, else zero-filled. -/
def fillKind (kinds : List PageKind) : PageKind :=
  match kinds.getLast? with
  | some .invalid => .invalid
  | _ => .zeroFilled

/-- The number of pages that `size` bytes of memory need. -/
def pagesFor (size pageSize : Nat) : Nat := (size + (pageSize - 1)) / pageSize

/-- The kind of every page of an object, those that its page table entries leave out included. -/
def objectPageKinds (m : ModuleImage) (number : Int) : Except Error (List PageKind) := do
  let o ← m.object number
  let kinds := (ofObject o m.pageTable).map PageEntry.kind
  let total := pagesFor o.virtualSize m.header.pageSize
  return kinds ++ List.replicate (total - kinds.length) (fillKind kinds)

/-! ## Pages -/

/-- The element of a list over the pages that belongs to a page. -/
def ofPage {α : Type} (m : ModuleImage) (page : Int) (perPage : List α) : Except Error α :=
  if 1 ≤ page ∧ page ≤ m.pageTable.length then
    match perPage[(page - 1).toNat]? with
    | some a => .ok a
    | none => .error .malformed
  else .error (.noPage page)

/-- The bytes of a page as stored in the file. -/
def pageData (m : ModuleImage) (page : Int) : Except Error (List UInt8) :=
  m.ofPage page m.pages

/-- The fixup records of a page. -/
def pageRecords (m : ModuleImage) (page : Int) : Except Error (List Record) :=
  m.ofPage page m.fixups

/-- The object that a page belongs to. -/
def pageOwner (m : ModuleImage) (page : Int) : Except Error ObjectEntry := do
  let _ ← m.ofPage page m.pageTable
  match m.objects.find? fun o => o.ownsPage page with
  | some o => return o
  | none => throw (.noObject page)

/-- The address where a page is loaded. -/
def pageAddress (m : ModuleImage) (page : Int) : Except Error Int := do
  let o ← m.pageOwner page
  return o.base + (page - o.firstPage) * m.header.pageSize

end ModuleImage

end LinearExecutable
