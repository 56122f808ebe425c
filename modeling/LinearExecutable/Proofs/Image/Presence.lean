import LinearExecutable.Proofs.Image.Fixups
import LinearExecutable.Proofs.Image.RoundTrip

/-!
# Tables that are there

An offset of zero in a header says that a table is absent. What a module has got from a table it has
got from one that its header places: an absent object table, page table, fixup record table or name
table leaves nothing behind, or the module is refused. The area of the page data is not asked for:
where it is absent, pages are read from the start of the file.
-/

namespace LinearExecutable

open Fixup (Effort)

/-! ## 1. Fixup records -/

-- Records and diagnostics come from bytes.
theorem Fixup.Tiles.length_pos {source : Source} {range : PageRange} {kept : PageFixups}
    (h : Tiles source range kept) (hkept : kept.records ≠ [] ∨ kept.diagnostic? ≠ none) :
    0 < range.length := by
  have hsize := h.size
  cases hdiagnostic : kept.diagnostic? with
  | none =>
    rcases hkept with hrecords | habsurd
    · obtain ⟨r, records, hcons⟩ := List.exists_cons_of_ne_nil hrecords
      have hpos := r.length_encode_pos source.order
      have hwhole := h.whole hdiagnostic
      rw [hcons, recordBytes, List.flatMap_cons, List.length_append] at hsize
      rw [hcons] at hwhole
      omega
    · exact absurd hdiagnostic habsurd
  | some d =>
    have hlt := (h.part d hdiagnostic).1
    omega

namespace Tables

/-- The last offset of the fixup page table speaks for all of them: one that is not zero needs the
record table. -/
theorem fixupRecordTable_ne_zero {t : Tables} {offsets : List Nat}
    (h : t.fixupPageTable? = .ok (some offsets)) {stop : Nat} (hstop : stop ∈ offsets)
    (hpos : stop ≠ 0) : t.header.fixupRecordTable ≠ 0 := by
  have hsorted := (of_fixupPageTable? h).2.2
  unfold fixupPageTable? at h
  split at h
  · cases h
  · obtain ⟨found, -, h⟩ := Except.bind_eq_ok_iff.mp h
    split at h
    · contradiction
    · rename_i last hlast
      split at h
      · contradiction
      · rename_i hpresent
        cases h
        -- no offset is behind the last one
        have hle : stop ≤ last := by
          obtain ⟨front, rfl⟩ := List.getLast?_eq_some_iff.mp hlast
          rw [List.pairwise_append] at hsorted
          rcases List.mem_append.mp hstop with hfront | hsame
          · exact hsorted.2.2 stop hfront last List.mem_cons_self
          · exact (List.mem_singleton.mp hsame).le
        exact fun habsent => hpresent ⟨by omega, habsent⟩

/-- A page with records or with a diagnostic has them from the record table. -/
theorem present_of_fixups {t : Tables} {effort : Effort} {offsets : List Nat}
    {pages : List Fixup.PageFixups} (h : t.fixups effort = .ok (offsets, pages))
    {kept : Fixup.PageFixups} (hmem : kept ∈ pages)
    (hkept : kept.records ≠ [] ∨ kept.diagnostic? ≠ none) :
    t.header.fixupPageTable ≠ 0 ∧ t.header.fixupRecordTable ≠ 0 := by
  rcases fixups_eq_ok_iff.mp h with ⟨-, -, rfl⟩ | ⟨htable, hpages⟩
  · obtain ⟨-, rfl⟩ := List.mem_replicate.mp hmem
    simp at hkept
  · obtain ⟨i, hi⟩ := List.mem_iff_getElem?.mp hmem
    obtain ⟨range, hrange, hpage⟩ := Except.getElem?_of_mapM_right hpages hi
    obtain ⟨start, stop, -, hstop, rfl⟩ := Fixup.getElem?_pageRanges.mp hrange
    have hpos : (0 : Int) < stop - start := (Fixup.tiles_of_decodePage hpage).length_pos hkept
    exact ⟨(of_fixupPageTable? htable).1,
      fixupRecordTable_ne_zero htable (List.mem_of_getElem? hstop) (by omega)⟩

end Tables

/-! ## 2. Names -/

theorem length_readNames {source : Source} {offset : Int} {count : Nat} {names : List String}
    (h : readNames source offset count = .ok names) : names.length = count := by
  induction count generalizing offset names with
  | zero =>
    cases h
    rfl
  | succ count ih =>
    obtain ⟨⟨name, next⟩, -, h⟩ := Except.bind_eq_ok_iff.mp h
    obtain ⟨others, hothers, h⟩ := Except.bind_eq_ok_iff.mp h
    cases h
    exact congrArg Nat.succ (ih hothers)

namespace Tables

theorem present_of_importModules {t : Tables} {names : List String}
    (h : t.importModules = .ok names) (hnames : names ≠ []) : t.header.importModuleTable ≠ 0 := by
  obtain ⟨_, htable, hread⟩ := Except.bind_eq_ok_iff.mp h
  refine (tableOffset_eq_ok_iff.mp htable).1 fun hcount => hnames ?_
  exact List.eq_nil_of_length_eq_zero ((length_readNames hread).trans hcount)

theorem present_of_importProcedures {t : Tables} {pages : List Fixup.PageFixups}
    {procedures : List (Int × String)} (h : t.importProcedures pages = .ok procedures)
    {kept : Fixup.PageFixups} (hmem : kept ∈ pages) {r : Fixup.Record} (hr : r ∈ kept.records)
    {nameOffset : Int} (hname : r.target.nameOffset? = some nameOffset) :
    t.header.importProcedureTable ≠ 0 := by
  obtain ⟨_, htable, -⟩ := Except.bind_eq_ok_iff.mp h
  have hneeded : nameOffset ∈ nameOffsets pages := mem_nameOffsets.mpr ⟨kept, hmem, r, hr, hname⟩
  exact (tableOffset_eq_ok_iff.mp htable).1 (List.length_pos_of_mem hneeded).ne'

end Tables

/-! ## 3. Page data -/

namespace Header

/-- Where the area starts that holds the data of a page. In an LX module iterated pages have an area
of their own, unless it is absent. -/
def areaOf (h : Header) (page : PageEntry) : Nat :=
  if page.form = .lx ∧ page.kind = .iterated ∧ h.iteratedPages ≠ 0 then h.iteratedPages
  else h.dataPages

/-- Where a page stands in its area. -/
def placeInArea (h : Header) (page : PageEntry) : Nat :=
  match page.form with
  | .le => (page.offset - 1) * h.pageSize
  | .lx => page.offset <<< h.pageShift

end Header

namespace Tables

/-- A page with data stands at its place in its area, whether the header has that area or not. -/
theorem pagePosition?_eq_ok_iff {header : Header} {page : PageEntry} {position? : Option Int}
    (hdata : page.kind.hasData = true) :
    pagePosition? header page = .ok position? ↔
      (page.form = .le → page.offset ≠ 0) ∧
        position? = some (header.areaOf page + header.placeInArea page : Int) := by
  unfold pagePosition? Header.areaOf Header.placeInArea
  rw [hdata]
  cases hform : page.form with
  | le =>
    by_cases hzero : page.offset = 0
    · simp [hzero]
    · -- physical pages are numbered from one
      have hfirst : ((page.offset - 1 : Nat) : Int) = page.offset - 1 := by omega
      simp [hzero, hfirst, eq_comm]
  | lx => simp [eq_comm]

theorem read_of_readPage {t : Tables} {page : PageEntry} {data : List UInt8}
    (h : t.readPage page = .ok data) (hdata : page.kind.hasData = true) :
    (page.form = .le → page.offset ≠ 0) ∧
      t.source.read (t.header.areaOf page + t.header.placeInArea page) page.size = .ok data := by
  rcases readPage_eq_ok_iff.mp h with ⟨hnone, -⟩ | ⟨position, hposition, hread⟩
  · have hsome := ((pagePosition?_eq_ok_iff hdata).mp hnone).2
    contradiction
  · obtain ⟨hphysical, hsome⟩ := (pagePosition?_eq_ok_iff hdata).mp hposition
    obtain rfl := Option.some.inj hsome
    exact ⟨hphysical, hread⟩

end Tables

/-! ## 4. Modules -/

namespace ModuleImage

/-- The header of a module has every table that something in the module comes from. -/
structure TablesPresent (m : ModuleImage) : Prop where
  objects : m.objects ≠ [] → m.header.objectTable ≠ 0
  pages : m.pageTable ≠ [] → m.header.objectPageTable ≠ 0
  records : ∀ records ∈ m.fixups, records ≠ [] →
    m.header.fixupPageTable ≠ 0 ∧ m.header.fixupRecordTable ≠ 0
  diagnostics : m.diagnostics ≠ [] →
    m.header.fixupPageTable ≠ 0 ∧ m.header.fixupRecordTable ≠ 0
  importModules : m.importModules ≠ [] → m.header.importModuleTable ≠ 0
  importProcedures : ∀ records ∈ m.fixups, ∀ r ∈ records, r.target.nameOffset? ≠ none →
    m.header.importProcedureTable ≠ 0

/-- The header of a module has the area of every page that is not empty. -/
def AreasPresent (m : ModuleImage) : Prop :=
  ∀ page ∈ m.pageTable, page.kind.hasData = true → page.size ≠ 0 →
    m.header.dataPages ≠ 0 ∨
      page.form = .lx ∧ page.kind = .iterated ∧ m.header.iteratedPages ≠ 0

section Decoded

variable {file : Source} {offset : Int} {effort : Effort} {path : String}
  {dosHeader? : Option DosHeader} {m : ModuleImage}

theorem present_of_objects (h : decode file offset effort path dosHeader? = .ok m)
    (hsome : m.objects ≠ []) : m.header.objectTable ≠ 0 := by
  obtain ⟨t, htables, hm, -, -⟩ := decode_eq_ok_iff.mp h
  obtain ⟨-, -, -, hpresent, ⟨_, hread⟩, -⟩ := Tables.read_eq_ok_iff.mp htables
  have hlen := (ObjectEntry.readTable_eq_ok_iff.mp hread).1
  rw [hm.objects, ← List.length_pos_iff] at hsome
  rw [hm.header]
  exact hpresent (by omega)

theorem present_of_pageTable (h : decode file offset effort path dosHeader? = .ok m)
    (hsome : m.pageTable ≠ []) : m.header.objectPageTable ≠ 0 := by
  have hlen := length_pageTable_of_decode h
  obtain ⟨t, htables, hm, -, -⟩ := decode_eq_ok_iff.mp h
  obtain ⟨-, -, -, -, -, hpresent, -⟩ := Tables.read_eq_ok_iff.mp htables
  rw [← List.length_pos_iff] at hsome
  rw [hm.header] at hlen ⊢
  exact hpresent (by omega)

theorem present_of_fixupPages (h : decode file offset effort path dosHeader? = .ok m)
    {kept : Fixup.PageFixups} (hmem : kept ∈ m.fixupPages)
    (hkept : kept.records ≠ [] ∨ kept.diagnostic? ≠ none) :
    m.header.fixupPageTable ≠ 0 ∧ m.header.fixupRecordTable ≠ 0 := by
  obtain ⟨t, -, hm, -, -⟩ := decode_eq_ok_iff.mp h
  rw [hm.header]
  exact Tables.present_of_fixups hm.fixups hmem hkept

/-- A page with data has the bytes at its place in its area. -/
theorem read_of_decode (h : decode file offset effort path dosHeader? = .ok m) {i : Nat}
    {page : PageEntry} (hpage : m.pageTable[i]? = some page) (hdata : page.kind.hasData = true) :
    (page.form = .le → page.offset ≠ 0) ∧
      ∃ data, m.pages[i]? = some data ∧
        file.read (m.header.areaOf page + m.header.placeInArea page) page.size = .ok data := by
  obtain ⟨t, htables, hm, -, -⟩ := decode_eq_ok_iff.mp h
  have hsource := (Tables.read_eq_ok_iff.mp htables).2.1
  obtain ⟨_, -, hpages⟩ := Except.bind_eq_ok_iff.mp hm.pages
  rw [hm.pageTable] at hpage
  obtain ⟨data, hi, hread⟩ := Except.getElem?_of_mapM hpages hpage
  obtain ⟨hphysical, hheld⟩ := Tables.read_of_readPage hread hdata
  rw [hsource, ← hm.header] at hheld
  exact ⟨hphysical, data, hi, hheld⟩

/-- Nothing in a module comes from a table that its header does not have. A page has the bytes at
its place in its area; an area that is absent counts as the file from its start on. -/
theorem tablesPresent_of_decode (h : decode file offset effort path dosHeader? = .ok m) :
    m.TablesPresent ∧
      ∀ (i : Nat) (page : PageEntry), m.pageTable[i]? = some page → page.kind.hasData = true →
        (page.form = .le → page.offset ≠ 0) ∧
        ∃ data, m.pages[i]? = some data ∧
          file.read (m.header.areaOf page + m.header.placeInArea page) page.size = .ok data := by
  obtain ⟨t, -, hm, -, -⟩ := decode_eq_ok_iff.mp h
  refine ⟨⟨present_of_objects h, present_of_pageTable h, ?_, ?_, ?_, ?_⟩,
    fun i page hpage hdata => read_of_decode h hpage hdata⟩
  · intro records hrecords hsome
    obtain ⟨kept, hmem, rfl⟩ := List.mem_map.mp hrecords
    exact present_of_fixupPages h hmem (.inl hsome)
  · intro hsome
    obtain ⟨d, hd⟩ := List.exists_mem_of_ne_nil _ hsome
    obtain ⟨kept, hmem, hdiagnostic⟩ := List.mem_filterMap.mp hd
    exact present_of_fixupPages h hmem (.inr (by rw [hdiagnostic]; exact Option.some_ne_none d))
  · rw [hm.header]
    exact Tables.present_of_importModules hm.importModules
  · intro records hrecords r hr hname
    obtain ⟨kept, hmem, rfl⟩ := List.mem_map.mp hrecords
    obtain ⟨nameOffset, hname⟩ := Option.ne_none_iff_exists'.mp hname
    rw [hm.header]
    exact Tables.present_of_importProcedures hm.importProcedures hmem hr hname

end Decoded

/-- The sample has records, names and pages, and the tables that they come from. -/
theorem tablesPresent_of_decode_sample :
    decode (Blueprint.sample.source .little) 3 ⟨false, none⟩ "SAMPLE.EXE" none = .ok sampleImage ∧
      (sampleImage.header.fixupRecordTable ≠ 0 ∧ sampleImage.header.importProcedureTable ≠ 0) ∧
      (Blueprint.sample.source .little).read
        (sampleImage.header.areaOf ⟨1, .lx, 0, 2, .legal⟩) 2 = .ok [7, 8] := by
  obtain ⟨htables, hpages⟩ := tablesPresent_of_decode decode_sampleImage
  have hrecords : [Blueprint.sampleRecord] ∈ sampleImage.fixups := List.mem_cons_self
  obtain ⟨-, data, hdata, hread⟩ := hpages 0 ⟨1, .lx, 0, 2, .legal⟩ rfl rfl
  cases hdata
  refine ⟨decode_sampleImage, ⟨(htables.records _ hrecords (List.cons_ne_nil _ _)).2, ?_⟩, hread⟩
  exact htables.importProcedures _ hrecords _ List.mem_cons_self (Option.some_ne_none _)

end ModuleImage

/-- The sample with a header that has no area for the data of the pages. -/
def Blueprint.arealessSample : Source :=
  ⟨⟨(sample.stub ++ ({ sample.header with dataPages := 0 } : Header).encode ++
    sample.file.drop (sample.stub.length + Header.size)).toArray⟩, .little⟩

namespace ModuleImage

-- What is decoded of it.
theorem decode_arealessSample :
    ∃ m, decode Blueprint.arealessSample 3 ⟨false, none⟩ "" none = .ok m ∧
      m.header.dataPages = 0 ∧ m.pageTable.head? = some ⟨1, .lx, 0, 2, .legal⟩ ∧
      m.pages.head? = some DosHeader.magic :=
  Except.exists_eq_ok (by decide +kernel)

/-- Without an area for them, pages are read all the same: the first one has the bytes that the DOS
program starts with. -/
theorem not_areasPresent_sample :
    ∃ m, decode Blueprint.arealessSample 3 ⟨false, none⟩ "" none = .ok m ∧
      m.pages.head? = some DosHeader.magic ∧ ¬m.AreasPresent := by
  obtain ⟨m, hm, harea, htable, hpages⟩ := decode_arealessSample
  refine ⟨m, hm, hpages, fun hpresent => ?_⟩
  rcases hpresent _ (List.mem_of_head? htable) rfl (by decide) with hdata | ⟨-, hkind, -⟩
  · exact hdata harea
  · cases hkind

end ModuleImage

end LinearExecutable
