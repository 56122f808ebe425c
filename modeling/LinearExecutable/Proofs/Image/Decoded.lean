import LinearExecutable.Proofs.Header
import LinearExecutable.Proofs.Image.Ownership
import LinearExecutable.Proofs.Tables

/-!
# Decoded modules

Decoding succeeds iff each of its stages does. What the stages leave behind in every module is
collected in `ModuleImage.Consistent`.
-/

namespace LinearExecutable

open Fixup (Effort PageFixups)

/-! ## 1. Stages -/

theorem tableOffset_eq_ok_iff {header at' : Int} {table entries : Nat} {name : String} :
    tableOffset header table entries name = .ok at' ↔
      (entries ≠ 0 → table ≠ 0) ∧ at' = header + table := by
  unfold tableOffset
  split
  · rename_i habsent
    simp [habsent]
  · rename_i hpresent
    rw [Except.ok.injEq, eq_comm, iff_and_self]
    exact fun _ hentries htable => hpresent ⟨hentries, htable⟩

/-- Header and tables are read iff each of them is, where the header places it. -/
theorem Tables.read_eq_ok_iff {file : Source} {offset : Int} {t : Tables} :
    Tables.read file offset = .ok t ↔
      t.offset = offset ∧ t.source = file.withOrder t.header.order ∧
        Header.read file offset = .ok (t.header, offset + Header.size) ∧
        (t.header.objectCount ≠ 0 → t.header.objectTable ≠ 0) ∧
        (∃ next, ObjectEntry.readTable t.source (offset + t.header.objectTable)
          t.header.objectCount = .ok (t.objects, next)) ∧
        (t.header.pageCount ≠ 0 → t.header.objectPageTable ≠ 0) ∧
        ∃ next, PageEntry.readTable t.source (offset + t.header.objectPageTable)
          t.header.pageCount t.header.pageForm t.header.pageSize t.header.lastPageSize =
            .ok (t.pageTable, next) := by
  unfold Tables.read
  simp only [Except.bind_eq_ok_iff, tableOffset_eq_ok_iff]
  constructor
  · rintro ⟨⟨header, next⟩, hheader, _, ⟨hobjects, rfl⟩, ⟨objects, nextObjects⟩, hread, _,
      ⟨hpages, rfl⟩, ⟨pageTable, nextPages⟩, hreadPages, h⟩
    cases h
    obtain rfl := (Header.read_eq_ok_iff.mp hheader).2.2.2
    exact ⟨rfl, rfl, hheader, hobjects, ⟨_, hread⟩, hpages, ⟨_, hreadPages⟩⟩
  · rintro ⟨rfl, hsource, hheader, hobjects, ⟨nextObjects, hread⟩, hpages, nextPages, hreadPages⟩
    -- both tables are read from the file in the order that its header gives
    rw [hsource] at hread hreadPages
    refine ⟨_, hheader, _, ⟨hobjects, rfl⟩, _, hread, _, ⟨hpages, rfl⟩, _, hreadPages, ?_⟩
    rw [← hsource]
    rfl

namespace Tables

-- A page without a position has no bytes.
theorem readPage_eq_ok_iff {t : Tables} {entry : PageEntry} {data : List UInt8} :
    t.readPage entry = .ok data ↔
      (pagePosition? t.header entry = .ok none ∧ data = []) ∨
      ∃ position, pagePosition? t.header entry = .ok (some position) ∧
        t.source.read position entry.size = .ok data := by
  rw [readPage, Except.bind_eq_ok_iff]
  constructor
  · rintro ⟨position?, hposition, hdata⟩
    cases position? with
    | none =>
      cases hdata
      exact .inl ⟨hposition, rfl⟩
    | some position => exact .inr ⟨position, hposition, hdata⟩
  · rintro (⟨hposition, rfl⟩ | ⟨position, hposition, hdata⟩)
    · exact ⟨none, hposition, rfl⟩
    · exact ⟨some position, hposition, hdata⟩

theorem mem_insertAscending {i j : Int} {offsets : List Int} :
    j ∈ insertAscending i offsets ↔ j = i ∨ j ∈ offsets := by
  induction offsets with
  | nil => exact List.mem_cons
  | cons k offsets ih =>
    rw [insertAscending]
    split
    · rw [List.mem_cons]
    · split
      · rename_i heq
        rw [heq, List.mem_cons]
        tauto
      · rw [List.mem_cons, ih, List.mem_cons]
        tauto

theorem insertAscending_pairwise {i : Int} {offsets : List Int}
    (h : offsets.Pairwise (· < ·)) : (insertAscending i offsets).Pairwise (· < ·) := by
  induction offsets with
  | nil => exact List.pairwise_singleton _ _
  | cons k offsets ih =>
    obtain ⟨hk, hrest⟩ := List.pairwise_cons.mp h
    rw [insertAscending]
    split
    · rename_i hlt
      refine List.pairwise_cons.mpr ⟨fun j hj => ?_, h⟩
      rcases List.mem_cons.mp hj with rfl | hj
      · exact hlt
      · exact Int.lt_trans hlt (hk j hj)
    · split
      · exact h
      · refine List.pairwise_cons.mpr ⟨fun j hj => ?_, ih hrest⟩
        rcases mem_insertAscending.mp hj with rfl | hj
        · omega
        · exact hk j hj

/-- The places of names are those that some record refers to. -/
theorem mem_nameOffsets {fixups : List PageFixups} {offset : Int} :
    offset ∈ nameOffsets fixups ↔
      ∃ page ∈ fixups, ∃ r ∈ page.records, r.target.nameOffset? = some offset := by
  have hfold : ∀ offsets : List Int,
      offset ∈ offsets.foldr insertAscending [] ↔ offset ∈ offsets := fun offsets => by
    induction offsets with
    | nil => rfl
    | cons i offsets ih => rw [List.foldr_cons, mem_insertAscending, ih, List.mem_cons]
  rw [nameOffsets, hfold]
  simp only [List.mem_flatMap, List.mem_filterMap]

theorem nameOffsets_pairwise (fixups : List PageFixups) :
    (nameOffsets fixups).Pairwise (· < ·) := by
  rw [nameOffsets]
  generalize fixups.flatMap _ = offsets
  induction offsets with
  | nil => exact .nil
  | cons i offsets ih => exact insertAscending_pairwise ih

end Tables

namespace ModuleImage

/-- What the stages behind the tables make of a module. -/
structure Completes (m : ModuleImage) (t : Tables) (effort : Effort) : Prop where
  header : m.header = t.header
  headerOffset : m.headerOffset = t.offset
  objects : m.objects = t.objects
  pageTable : m.pageTable = t.pageTable
  fixups : t.fixups effort = .ok (m.fixupPageTable, m.fixupPages)
  pages : t.pageData = .ok m.pages
  importModules : t.importModules = .ok m.importModules
  importProcedures : t.importProcedures m.fixupPages = .ok m.importProcedures
  residentNames : t.residentNames = .ok m.residentNames

/-- A module is decoded iff its tables are read and complete it. -/
theorem decode_eq_ok_iff {file : Source} {offset : Int} {effort : Effort} {path : String}
    {dosHeader? : Option DosHeader} {m : ModuleImage} :
    decode file offset effort path dosHeader? = .ok m ↔
      ∃ t, Tables.read file offset = .ok t ∧ m.Completes t effort ∧ m.path = path ∧
        m.dosHeader? = dosHeader? := by
  unfold decode
  simp only [Except.bind_eq_ok_iff]
  constructor
  · rintro ⟨t, htables, ⟨fixupPageTable, fixupPages⟩, hfixups, pages, hpages, importModules,
      hmodules, importProcedures, hprocedures, residentNames, hresident, h⟩
    cases h
    have hoffset := (Tables.read_eq_ok_iff.mp htables).1
    exact ⟨t, htables, ⟨rfl, hoffset.symm, rfl, rfl, hfixups, hpages, hmodules, hprocedures,
      hresident⟩, rfl, rfl⟩
  · rintro ⟨t, htables, hm, rfl, rfl⟩
    refine ⟨t, htables, _, hm.fixups, _, hm.pages, _, hm.importModules, _, hm.importProcedures, _,
      hm.residentNames, ?_⟩
    rw [← hm.header, ← hm.objects, ← hm.pageTable, ← (Tables.read_eq_ok_iff.mp htables).1,
      ← hm.headerOffset]
    rfl

/-! ## 2. What holds of every module -/

/-- Objects and pages are numbered from one, the objects own all pages in order, every page has its
stored bytes, and pages are not empty. -/
structure Consistent (m : ModuleImage) : Prop where
  numbered : m.objects.map ObjectEntry.number = List.range' 1 m.objects.length
  pagesNumbered : m.pageTable.map PageEntry.number = List.range' 1 m.pageTable.length
  owned : m.objects.flatMap ObjectEntry.pageNumbers = List.range' 1 m.pageTable.length
  stored : m.pages.length = m.pageTable.length
  pageSize_pos : 0 < m.header.pageSize

theorem consistent_of_decode {file : Source} {offset : Int} {effort : Effort} {path : String}
    {dosHeader? : Option DosHeader} {m : ModuleImage}
    (h : decode file offset effort path dosHeader? = .ok m) : m.Consistent := by
  obtain ⟨t, htables, hm, -, -⟩ := decode_eq_ok_iff.mp h
  obtain ⟨-, -, hheader, -, ⟨_, hobjects⟩, -, _, hpages⟩ := Tables.read_eq_ok_iff.mp htables
  obtain ⟨_, hnumbered, -⟩ := ObjectEntry.readTable_eq_ok_iff.mp hobjects
  obtain ⟨pages, -, -, -, htable, -⟩ := PageEntry.readTable_eq_ok_iff.mp hpages
  obtain ⟨_, howned, hdata⟩ := Except.bind_eq_ok_iff.mp hm.pages
  refine ⟨hm.objects ▸ hnumbered, ?_, ?_, ?_, ?_⟩
  · rw [hm.pageTable, htable, PageEntry.number_ofStored, PageEntry.length_ofStored]
  · rw [hm.objects, hm.pageTable]
    exact checkOwnership_eq_ok_iff.mp howned
  · rw [hm.pageTable]
    exact (Except.mapM_eq_ok_iff.mp hdata).length_eq.symm
  · -- page sizes that are no powers of two are refused
    have hfault := (Header.read_eq_ok_iff.mp hheader).2.2.1
    obtain ⟨k, hk⟩ := Header.pageSizeFault?_eq_none_iff.mp (Header.fault?_eq_none_iff.mp hfault).1
    rw [hm.header, hk, Nat.one_shiftLeft]
    exact Nat.two_pow_pos k

end ModuleImage

end LinearExecutable
