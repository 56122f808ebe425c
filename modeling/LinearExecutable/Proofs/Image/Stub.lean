import LinearExecutable.Proofs.Bytes.Behind
import LinearExecutable.Proofs.Fixup.Locality
import LinearExecutable.Proofs.Image.Fixups

/-!
# Modules behind a stub

More bytes in front of a module move its header and every table that the header places relative to
itself; the module decodes to the same tables, fixups and names. The data of the pages are placed
relative to the file, so they are the bytes at the same positions as before.
-/

namespace LinearExecutable

open Fixup (Diagnostic Effort PageFixups PageRange)

/-! ## 1. Header and tables -/

section Stages

variable {n : Nat} {alone whole : Source}

theorem Header.fault?_behind (h : alone.Behind n whole) {header : Header} {offset : Int}
    (hfault : header.fault? alone.size offset = none) :
    header.fault? whole.size (offset + n) = none := by
  rw [fault?_eq_none_iff, pastEnd?_eq_none_iff, pastEnd?_eq_none_iff] at hfault ⊢
  obtain ⟨hpageSize, hshift, hrelative, hfile⟩ := hfault
  rw [h.size_eq]
  refine ⟨hpageSize, hshift, fun field hfield hvalue => ?_, fun field hfield hvalue => ?_⟩
  · have := hrelative field hfield hvalue
    omega
  · have := hfile field hfield hvalue
    omega

theorem Header.read_behind (h : alone.Behind n whole) {header : Header} {offset next : Int}
    (hread : read alone offset = .ok (header, next)) :
    read whole (offset + n) = .ok (header, next + n) := by
  obtain ⟨hfits, hheld, hfault, rfl⟩ := read_eq_ok_iff.mp hread
  exact read_eq_ok_iff.mpr ⟨hfits, h.holds hheld, fault?_behind h hfault, by omega⟩

theorem ObjectEntry.readTable_behind (h : alone.Behind n whole) {offset next : Int} {count : Nat}
    {objects : List ObjectEntry} (hread : readTable alone offset count = .ok (objects, next)) :
    readTable whole (offset + n) count = .ok (objects, next + n) := by
  obtain ⟨hlen, hnumbered, hfits, hheld, rfl⟩ := readTable_eq_ok_iff.mp hread
  exact readTable_eq_ok_iff.mpr ⟨hlen, hnumbered, hfits, h.order ▸ h.holds hheld, by omega⟩

theorem PageEntry.readTable_behind (h : alone.Behind n whole) {offset next : Int} {count : Nat}
    {form : PageForm} {pageSize lastPageSize : Int} {table : List PageEntry}
    (hread : readTable alone offset count form pageSize lastPageSize = .ok (table, next)) :
    readTable whole (offset + n) count form pageSize lastPageSize = .ok (table, next + n) := by
  obtain ⟨pages, hlen, hstored, hheld, htable, rfl⟩ := readTable_eq_ok_iff.mp hread
  exact readTable_eq_ok_iff.mpr
    ⟨pages, hlen, hstored, h.order ▸ h.holds hheld, htable, by omega⟩

namespace Tables

/-- The same tables, `n` bytes further on in another source. -/
def behind (t : Tables) (n : Nat) (source : Source) : Tables :=
  { t with source, offset := t.offset + n }

theorem read_behind (h : alone.Behind n whole) {offset : Int} {t : Tables}
    (hread : read alone offset = .ok t) :
    read whole (offset + n) = .ok (t.behind n (whole.withOrder t.header.order)) := by
  obtain ⟨rfl, hsource, hheader, hobjects, ⟨_, hreadObjects⟩, hpages, _, hreadPages⟩ :=
    read_eq_ok_iff.mp hread
  have hbehind : t.source.Behind n (whole.withOrder t.header.order) :=
    hsource ▸ h.withOrder t.header.order
  have hheader' := Header.read_behind h hheader
  have hreadObjects' := ObjectEntry.readTable_behind hbehind hreadObjects
  have hreadPages' := PageEntry.readTable_behind hbehind hreadPages
  rw [Int.add_right_comm] at hheader' hreadObjects' hreadPages'
  exact read_eq_ok_iff.mpr
    ⟨rfl, rfl, hheader', hobjects, ⟨_, hreadObjects'⟩, hpages, _, hreadPages'⟩

end Tables

/-! ## 2. Fixups -/

namespace Fixup

/-- A diagnostic about a record that stands `shift` bytes further on. -/
def Diagnostic.shifted (shift : Int) (d : Diagnostic) : Diagnostic :=
  { d with error := d.error.shifted shift }

/-- The fixups of a page whose records stand `shift` bytes further on. -/
def PageFixups.shifted (shift : Int) (kept : PageFixups) : PageFixups :=
  { kept with diagnostic? := kept.diagnostic?.map (Diagnostic.shifted shift) }

/-- The range of a page whose records stand `shift` bytes further on. -/
def PageRange.shifted (shift : Int) (range : PageRange) : PageRange :=
  { range with offset := range.offset + shift }

theorem pageRanges_add (table shift : Int) (offsets : List Int) :
    pageRanges (table + shift) offsets =
      (pageRanges table offsets).map (PageRange.shifted shift) := by
  rw [pageRanges, pageRanges, List.map_map]
  refine List.map_congr_left ?_
  rintro ⟨⟨start, stop⟩, page⟩ -
  show PageRange.mk page (table + shift + start) (stop - start) =
    PageRange.mk page (table + start + shift) (stop - start)
  rw [Int.add_right_comm]

-- What is kept of a page moves with its records.
theorem keep_shifted {d : Decoded} {page shift : Int} {bestEffort : Bool} {kept : PageFixups}
    (h : d.keep page bestEffort = .ok kept) :
    (d.shifted shift).keep page bestEffort = .ok (kept.shifted shift) := by
  obtain ⟨records, failure?⟩ := d
  rcases keep_eq_ok_iff.mp h with ⟨hfailure, rfl⟩ | ⟨fixup, hmode, hfailure, rfl⟩
  · obtain rfl : failure? = none := hfailure
    exact keep_eq_ok_iff.mpr (.inl ⟨rfl, rfl⟩)
  · obtain rfl : failure? = some (.unsupportedFixup fixup) := hfailure
    exact keep_eq_ok_iff.mpr (.inr ⟨fixup.shifted shift, hmode, rfl, rfl⟩)

theorem decodePage_behind (h : alone.Behind n whole) {bestEffort : Bool} {range : PageRange}
    {kept : PageFixups} (hkept : decodePage alone bestEffort range = .ok kept) :
    decodePage whole bestEffort (range.shifted n) = .ok (kept.shifted n) := by
  obtain ⟨hnonneg, hlength, hend⟩ := Source.require_eq_ok_iff.mp (require_of_decodePage hkept)
  obtain ⟨bytes, hbytes, hheld⟩ :=
    Source.exists_holds range.length.toNat hnonneg (by omega : _ ≤ (alone.size : Int))
  -- both files hold the records of the page, so they are decoded alike
  have hmoved := decodeRange_moved range.page h.order hheld (h.holds hheld)
  rw [show (bytes.length : Int) = range.length by omega, add_sub_cancel_left] at hmoved
  rw [decodePage] at hkept ⊢
  show (decodeRange whole (range.offset + n) range.length range.page).keep _ _ = _
  rw [hmoved]
  exact keep_shifted hkept

theorem decodePages_behind (h : alone.Behind n whole) {bestEffort : Bool} {table : Int}
    {offsets : List Int} {pages : List PageFixups}
    (hpages : (pageRanges table offsets).mapM (decodePage alone bestEffort) = .ok pages) :
    (pageRanges (table + n) offsets).mapM (decodePage whole bestEffort) =
      .ok (pages.map (PageFixups.shifted n)) := by
  rw [Except.mapM_eq_ok_iff] at hpages
  rw [pageRanges_add, Except.mapM_eq_ok_iff, List.forall₂_map_left_iff, List.forall₂_map_right_iff]
  exact hpages.imp fun _ _ hkept => decodePage_behind h hkept

theorem readPageTable_behind (h : alone.Behind n whole) {offset : Int} {pages : Nat}
    {offsets : List Nat} (hread : readPageTable alone offset pages = .ok offsets) :
    readPageTable whole (offset + n) pages = .ok offsets := by
  obtain ⟨hlen, hbound, hheld, hsorted⟩ := readPageTable_eq_ok_iff.mp hread
  exact readPageTable_eq_ok_iff.mpr ⟨hlen, hbound, h.order ▸ h.holds hheld, hsorted⟩

end Fixup

namespace Tables

variable {t : Tables} {source : Source}

theorem fixupPageTable?_behind (h : t.source.Behind n source) {offsets? : Option (List Nat)}
    (htable : t.fixupPageTable? = .ok offsets?) :
    (t.behind n source).fixupPageTable? = .ok offsets? := by
  unfold fixupPageTable? at htable ⊢
  split at htable
  · rename_i habsent
    rw [if_pos (show (t.behind n source).header.fixupPageTable = 0 from habsent)]
    exact htable
  · rename_i hpresent
    rw [if_neg (show (t.behind n source).header.fixupPageTable ≠ 0 from hpresent)]
    obtain ⟨offsets, hread, hoffsets⟩ := Except.bind_eq_ok_iff.mp htable
    have hread' := Fixup.readPageTable_behind h hread
    rw [Int.add_right_comm] at hread'
    exact Except.bind_eq_ok_iff.mpr ⟨offsets, hread', hoffsets⟩

theorem fixups_behind (h : t.source.Behind n source) {effort : Effort} {offsets : List Nat}
    {pages : List PageFixups} (hfixups : t.fixups effort = .ok (offsets, pages)) :
    (t.behind n source).fixups effort = .ok (offsets, pages.map (PageFixups.shifted n)) := by
  rw [fixups_eq_ok_iff] at hfixups ⊢
  rcases hfixups with ⟨habsent, rfl, rfl⟩ | ⟨htable, hpages⟩
  · exact .inl ⟨fixupPageTable?_behind h habsent, rfl, List.map_replicate⟩
  · have hpages' := Fixup.decodePages_behind h hpages
    rw [Int.add_right_comm] at hpages'
    exact .inr ⟨fixupPageTable?_behind h htable, hpages'⟩

/-! ## 3. Page data -/

theorem exists_readPage_behind (h : t.source.Behind n source) {entry : PageEntry}
    {data : List UInt8} (hdata : t.readPage entry = .ok data) :
    ∃ data', (t.behind n source).readPage entry = .ok data' := by
  rcases readPage_eq_ok_iff.mp hdata with ⟨hposition, -⟩ | ⟨position, hposition, hread⟩
  · exact ⟨[], readPage_eq_ok_iff.mpr (.inl ⟨hposition, rfl⟩)⟩
  · obtain ⟨data', hread'⟩ := h.exists_read hread
    exact ⟨data', readPage_eq_ok_iff.mpr (.inr ⟨position, hposition, hread'⟩)⟩

theorem exists_pageData_behind (h : t.source.Behind n source) {pages : List (List UInt8)}
    (hpages : t.pageData = .ok pages) : ∃ pages', (t.behind n source).pageData = .ok pages' := by
  obtain ⟨_, howned, hpages⟩ := Except.bind_eq_ok_iff.mp hpages
  refine Except.exists_bind_ok ⟨(), howned⟩ fun _ => Except.exists_mapM_ok fun entry hentry => ?_
  obtain ⟨i, hi⟩ := List.mem_iff_getElem?.mp hentry
  obtain ⟨data, -, hdata⟩ := Except.getElem?_of_mapM hpages hi
  exact exists_readPage_behind h hdata

/-- The data of a page on its own and behind a stub: none in both, or what stands at the same
position of the one file and of the other. -/
theorem pages_behind {pages pages' : List (List UInt8)} (hpages : t.pageData = .ok pages)
    (hpages' : (t.behind n source).pageData = .ok pages') {i : Nat} {entry : PageEntry}
    (hentry : t.pageTable[i]? = some entry) :
    ∃ data data', pages[i]? = some data ∧ pages'[i]? = some data' ∧
      (pagePosition? t.header entry = .ok none ∧ data = [] ∧ data' = [] ∨
        ∃ position, pagePosition? t.header entry = .ok (some position) ∧
          t.source.read position entry.size = .ok data ∧
          source.read position entry.size = .ok data') := by
  obtain ⟨_, -, hpages⟩ := Except.bind_eq_ok_iff.mp hpages
  obtain ⟨_, -, hpages'⟩ := Except.bind_eq_ok_iff.mp hpages'
  obtain ⟨data, hdata, hread⟩ := Except.getElem?_of_mapM hpages hentry
  obtain ⟨data', hdata', hread'⟩ := Except.getElem?_of_mapM hpages' hentry
  refine ⟨data, data', hdata, hdata', ?_⟩
  rcases readPage_eq_ok_iff.mp hread with ⟨hnone, rfl⟩ | ⟨position, hposition, hheld⟩ <;>
    rcases readPage_eq_ok_iff.mp hread' with ⟨hnone', rfl⟩ | ⟨position', hposition', hheld'⟩
  · exact .inl ⟨hnone, rfl, rfl⟩
  · cases hnone.symm.trans hposition'
  · cases hposition.symm.trans hnone'
  · cases hposition.symm.trans hposition'
    exact .inr ⟨position, hposition, hheld, hheld'⟩

/-! ## 4. Names -/

theorem tableOffset_behind {header at' : Int} {table entries : Nat} {name : String}
    (h : tableOffset header table entries name = .ok at') :
    tableOffset (header + n) table entries name = .ok (at' + n) := by
  obtain ⟨hpresent, rfl⟩ := tableOffset_eq_ok_iff.mp h
  exact tableOffset_eq_ok_iff.mpr ⟨hpresent, Int.add_right_comm _ _ _⟩

theorem readNames_behind (h : alone.Behind n whole) {offset : Int} {count : Nat}
    {names : List String} (hread : readNames alone offset count = .ok names) :
    readNames whole (offset + n) count = .ok names := by
  induction count generalizing offset names with
  | zero => exact hread
  | succ count ih =>
    obtain ⟨⟨name, next⟩, hname, hread⟩ := Except.bind_eq_ok_iff.mp hread
    obtain ⟨others, hothers, hnames⟩ := Except.bind_eq_ok_iff.mp hread
    exact Except.bind_eq_ok_iff.mpr ⟨_, h.readCounted hname,
      Except.bind_eq_ok_iff.mpr ⟨others, ih hothers, hnames⟩⟩

theorem readResidentNames_behind (h : alone.Behind n whole) {offset : Int}
    {names : List ResidentName} (hread : ResidentName.readTable alone offset = .ok names) :
    ResidentName.readTable whole (offset + n) = .ok names := by
  -- every name takes some of the bytes that are left
  induction hleft : (alone.size - offset).toNat using Nat.strong_induction_on
    generalizing offset names with
  | _ left ih =>
    rw [ResidentName.readTable_eq] at hread ⊢
    obtain ⟨length, hlength, hread⟩ := Except.bind_eq_ok_iff.mp hread
    refine Except.bind_eq_ok_iff.mpr ⟨length, h.word hlength, ?_⟩
    split at hread
    · rename_i hzero
      rw [if_pos hzero]
      exact hread
    · rename_i hpositive
      obtain ⟨⟨name, next⟩, hname, hread⟩ := Except.bind_eq_ok_iff.mp hread
      obtain ⟨ordinal, hordinal, hread⟩ := Except.bind_eq_ok_iff.mp hread
      obtain ⟨others, hothers, hnames⟩ := Except.bind_eq_ok_iff.mp hread
      obtain ⟨hlt, hle⟩ := Source.lt_of_readCounted hname
      have hothers' := ih _ (by omega) hothers rfl
      rw [Int.add_right_comm] at hothers'
      rw [if_neg hpositive]
      exact Except.bind_eq_ok_iff.mpr ⟨_, h.readCounted hname, Except.bind_eq_ok_iff.mpr
        ⟨ordinal, h.word hordinal, Except.bind_eq_ok_iff.mpr ⟨others, hothers', hnames⟩⟩⟩

theorem importModules_behind (h : t.source.Behind n source) {names : List String}
    (hread : t.importModules = .ok names) : (t.behind n source).importModules = .ok names := by
  obtain ⟨table, htable, hnames⟩ := Except.bind_eq_ok_iff.mp hread
  exact Except.bind_eq_ok_iff.mpr ⟨_, tableOffset_behind htable, readNames_behind h hnames⟩

theorem nameOffsets_shifted (shift : Int) (pages : List PageFixups) :
    nameOffsets (pages.map (PageFixups.shifted shift)) = nameOffsets pages := by
  rw [nameOffsets, nameOffsets, List.flatMap_map]
  rfl

theorem importProcedures_behind (h : t.source.Behind n source) {pages : List PageFixups}
    {procedures : List (Int × String)} (hread : t.importProcedures pages = .ok procedures) :
    (t.behind n source).importProcedures (pages.map (PageFixups.shifted n)) = .ok procedures := by
  obtain ⟨table, htable, hprocedures⟩ := Except.bind_eq_ok_iff.mp hread
  unfold importProcedures
  rw [nameOffsets_shifted]
  refine Except.bind_eq_ok_iff.mpr ⟨_, tableOffset_behind htable, ?_⟩
  rw [Except.mapM_eq_ok_iff] at hprocedures ⊢
  refine hprocedures.imp fun nameOffset procedure hprocedure => ?_
  obtain ⟨⟨name, next⟩, hname, hpair⟩ := Except.bind_eq_ok_iff.mp hprocedure
  have hname' := h.readCounted hname
  rw [Int.add_right_comm] at hname'
  exact Except.bind_eq_ok_iff.mpr ⟨_, hname', hpair⟩

theorem residentNames_behind (h : t.source.Behind n source) {names : List ResidentName}
    (hread : t.residentNames = .ok names) : (t.behind n source).residentNames = .ok names := by
  unfold residentNames at hread ⊢
  split at hread
  · rename_i habsent
    rw [if_pos (show (t.behind n source).header.residentNameTable = 0 from habsent)]
    exact hread
  · rename_i hpresent
    rw [if_neg (show (t.behind n source).header.residentNameTable ≠ 0 from hpresent)]
    have hread' := readResidentNames_behind h hread
    rw [Int.add_right_comm] at hread'
    exact hread'

end Tables

/-! ## 5. Modules -/

namespace ModuleImage

/-- The module that is decoded behind a stub of `n` bytes, against the one that is decoded on its
own. The header and all tables are the same; the header and the places that diagnostics name are `n`
bytes further on; and the data of a page are what the larger file has at the position that the page
had before. -/
structure MovedBy (n : Nat) (alone whole : Source) (m m' : ModuleImage) : Prop where
  headerOffset : m'.headerOffset = m.headerOffset + n
  header : m'.header = m.header
  objects : m'.objects = m.objects
  pageTable : m'.pageTable = m.pageTable
  fixupPageTable : m'.fixupPageTable = m.fixupPageTable
  fixups : m'.fixups = m.fixups
  importModules : m'.importModules = m.importModules
  importProcedures : m'.importProcedures = m.importProcedures
  residentNames : m'.residentNames = m.residentNames
  diagnostics : m'.diagnostics = m.diagnostics.map (Diagnostic.shifted n)
  pages : ∀ (i : Nat) (entry : PageEntry), m.pageTable[i]? = some entry →
    ∃ data data', m.pages[i]? = some data ∧ m'.pages[i]? = some data' ∧
      (Tables.pagePosition? m.header entry = .ok none ∧ data = [] ∧ data' = [] ∨
        ∃ position, Tables.pagePosition? m.header entry = .ok (some position) ∧
          alone.read position entry.size = .ok data ∧
          whole.read position entry.size = .ok data')

/-- What is decoded on its own is decoded behind a stub. -/
theorem exists_decode_behind (h : alone.Behind n whole) {offset : Int} {effort : Effort}
    {path : String} {dosHeader? : Option DosHeader} {m : ModuleImage}
    (hm : decode alone offset effort path dosHeader? = .ok m) :
    ∃ m', decode whole (offset + n) effort path dosHeader? = .ok m' ∧
      MovedBy n alone whole m m' := by
  obtain ⟨t, htables, hcompletes, rfl, rfl⟩ := decode_eq_ok_iff.mp hm
  have hsource : t.source.Behind n (whole.withOrder t.header.order) := by
    rw [(Tables.read_eq_ok_iff.mp htables).2.1]
    exact h.withOrder t.header.order
  obtain ⟨pages', hpages'⟩ := Tables.exists_pageData_behind hsource hcompletes.pages
  refine ⟨{ m with
    headerOffset := m.headerOffset + n
    fixupPages := m.fixupPages.map (PageFixups.shifted n)
    pages := pages' }, decode_eq_ok_iff.mpr ⟨_, Tables.read_behind h htables, ?_, rfl, rfl⟩, ?_⟩
  · exact {
      header := hcompletes.header
      headerOffset := by rw [hcompletes.headerOffset]; rfl
      objects := hcompletes.objects
      pageTable := hcompletes.pageTable
      fixups := Tables.fixups_behind hsource hcompletes.fixups
      pages := hpages'
      importModules := Tables.importModules_behind hsource hcompletes.importModules
      importProcedures := Tables.importProcedures_behind hsource hcompletes.importProcedures
      residentNames := Tables.residentNames_behind hsource hcompletes.residentNames }
  · refine ⟨rfl, rfl, rfl, rfl, rfl, ?_, rfl, rfl, rfl, ?_, fun i entry hentry => ?_⟩
    · exact List.map_map
    · rw [diagnostics, diagnostics, Fixup.diagnosticsOf, Fixup.diagnosticsOf, List.filterMap_map,
        List.map_filterMap]
      rfl
    · rw [hcompletes.pageTable] at hentry
      rw [hcompletes.header]
      have hplaced := Tables.pages_behind hcompletes.pages hpages' hentry
      rw [(Tables.read_eq_ok_iff.mp htables).2.1] at hplaced
      exact hplaced

end ModuleImage

end Stages

namespace ModuleImage

/-- A module decodes the same behind any stub, strictly or with best effort. -/
theorem decode_behind_stub (stub buffer : ByteArray) (order : ByteOrder) (offset : Int)
    (effort : Effort) (path : String) (dosHeader? : Option DosHeader) (m : ModuleImage)
    (h : decode ⟨buffer, order⟩ offset effort path dosHeader? = .ok m) :
    ∃ m', decode ⟨stub ++ buffer, order⟩ (offset + stub.size) effort path dosHeader? = .ok m' ∧
      MovedBy stub.size ⟨buffer, order⟩ ⟨stub ++ buffer, order⟩ m m' :=
  exists_decode_behind (Source.behind_append stub buffer order) h

/-- Behind five more bytes, the broken sample keeps the same record, and its diagnostic names the
place five bytes further on. -/
theorem decode_behind_stub_brokenSample :
    ∃ m', decode ⟨⟨#[1, 2, 3, 4, 5]⟩ ++ (Blueprint.brokenSample.source .little).buffer, .little⟩ 8
        ⟨true, none⟩ "SAMPLE.EXE" none = .ok m' ∧
      m'.fixups = [[Blueprint.sampleRecord], [], []] ∧
      m'.diagnostics = [⟨1, ⟨.undefinedKind 1, some 1, some 0, some 1, some 297⟩⟩] := by
  obtain ⟨m, hm, -, hfixups, hdiagnostics, -⟩ := decode_brokenSample
  obtain ⟨m', hm', hmoved⟩ := decode_behind_stub ⟨#[1, 2, 3, 4, 5]⟩ _ .little _ _ _ _ m hm
  refine ⟨m', hm', hmoved.fixups.trans hfixups, ?_⟩
  rw [hmoved.diagnostics, hdiagnostics]
  rfl

end ModuleImage

end LinearExecutable
