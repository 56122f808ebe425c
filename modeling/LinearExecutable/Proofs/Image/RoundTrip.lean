import LinearExecutable.Proofs.Fixup.Codec
import LinearExecutable.Proofs.Image.Decoded
import LinearExecutable.Proofs.Image.Placement

/-!
# Decoding what was laid out

A module that is laid out from a blueprint decodes to what the blueprint says.
-/

namespace LinearExecutable

open Fixup (Effort PageFixups Record)

namespace Blueprint

/-! ## 1. Where the parts are -/

/-- A source holds each part of the module at its place. -/
structure Laid (b : Blueprint) (source : Source) : Prop where
  header : source.Holds b.stub.length b.header.encode
  objectTable : source.Holds (b.stub.length + Header.size) b.objectTable
  pageTable : source.Holds (b.stub.length + b.pageTableAt) b.pageTable
  residentTable : source.Holds (b.stub.length + b.residentAt) b.residentTable
  fixupPageTable : source.Holds (b.stub.length + b.fixupPageTableAt) b.fixupPageTable
  fixupRecords : source.Holds (b.stub.length + b.fixupRecordsAt) b.fixupRecords
  importTable : source.Holds (b.stub.length + b.importTableAt) b.importTable
  importProcedures : source.Holds (b.stub.length + b.proceduresAt) b.importProcedures
  pageData : source.Holds b.pageDataAt b.pageData

theorem toList_source (b : Blueprint) (order : ByteOrder) : (b.source order).toList = b.file :=
  rfl

theorem laid_source {b : Blueprint} (hfits : b.header.Fits) (order : ByteOrder) :
    b.Laid (b.source order) := by
  have hfile : (b.source order).Holds 0 b.file := ⟨[], [], by rw [toList_source]; simp, rfl⟩
  rw [file] at hfile
  simp only [Source.holds_append_iff, Header.length_encode hfits, Int.zero_add] at hfile
  obtain ⟨-, hheader, hobjects, hpages, hresident, hstarts, hrecords, hmodules, hprocedures,
    hdata⟩ := hfile
  refine ⟨hheader, hobjects, ?_, ?_, ?_, ?_, ?_, ?_, ?_⟩
  all_goals
    simp only [pageDataAt, proceduresAt, importTableAt, fixupRecordsAt, fixupPageTableAt,
      residentAt, pageTableAt, Nat.cast_add, ← Int.add_assoc]
    assumption

-- The header stands in front of every part, so no part is at zero, which would say that it is
-- missing.
theorem places_pos (b : Blueprint) :
    0 < b.pageTableAt ∧ 0 < b.residentAt ∧ 0 < b.fixupPageTableAt ∧ 0 < b.fixupRecordsAt ∧
      0 < b.importTableAt ∧ 0 < b.proceduresAt := by
  have hsize : 0 < Header.size := by decide
  have hpages : 0 < b.pageTableAt := Nat.add_pos_left hsize _
  have hresident : 0 < b.residentAt := Nat.add_pos_left hpages _
  have hstarts : 0 < b.fixupPageTableAt := Nat.add_pos_left hresident _
  have hrecords : 0 < b.fixupRecordsAt := Nat.add_pos_left hstarts _
  have hmodules : 0 < b.importTableAt := Nat.add_pos_left hrecords _
  exact ⟨hpages, hresident, hstarts, hrecords, hmodules, Nat.add_pos_left hmodules _⟩

/-! ## 2. Everything fits -/

theorem length_startsFrom (start : Nat) (pages : List PageSpec) :
    (startsFrom start pages).length = pages.length + 1 := by
  induction pages generalizing start with
  | nil => rfl
  | cons page pages ih => rw [startsFrom, List.length_cons, ih, List.length_cons]

theorem length_fixupPageTable (b : Blueprint) :
    b.fixupPageTable.length = 4 * (b.pages.length + 1) := by
  rw [fixupPageTable, List.length_flatMap]
  simp only [ByteOrder.length_wordBytes, List.map_const', List.sum_replicate, smul_eq_mul]
  rw [fixupStarts, length_startsFrom, Nat.mul_comm]

theorem length_le_flatMap {α : Type} {f : α → List UInt8} {xs : List α}
    (h : ∀ x ∈ xs, 0 < (f x).length) : xs.length ≤ (xs.flatMap f).length := by
  induction xs with
  | nil => simp
  | cons x xs ih =>
    rw [List.forall_mem_cons] at h
    have := ih h.2
    rw [List.length_cons, List.flatMap_cons, List.length_append]
    omega

-- The entries of objects that fit, whose pages fit.
theorem fits_entriesFrom {objects : List ObjectSpec} {number first : Nat}
    (hobjects : ∀ o ∈ objects,
      o.base < Word.bound 4 ∧ o.virtualSize < Word.bound 4 ∧ o.flags < Word.bound 4)
    (hpages : first + (objects.flatMap ObjectSpec.pages).length < Word.bound 4) :
    ∀ o ∈ entriesFrom number first objects, o.Fits := by
  induction objects generalizing number first with
  | nil => simp [entriesFrom]
  | cons o objects ih =>
    rw [List.forall_mem_cons] at hobjects
    rw [List.flatMap_cons, List.length_append] at hpages
    rw [entriesFrom, List.forall_mem_cons]
    obtain ⟨hbase, hsize, hflags⟩ := hobjects.1
    refine ⟨?_, ih hobjects.2 (by omega)⟩
    rw [ObjectEntry.Fits, ObjectEntry.layout, Layout.fits_unsigned_iff]
    refine ⟨_, rfl, ?_, rfl⟩
    simp only [List.forall_mem_cons]
    exact ⟨hsize, hbase, hflags, by omega, by omega, by decide, List.forall_mem_nil _⟩

section Fields

variable {b : Blueprint} (hb : b.Buildable)
include hb

theorem pages_lt : 1 + b.pages.length < Word.bound 4 := by
  have hplace := hb.pageDataAt
  have htable := b.length_fixupPageTable
  simp only [pageDataAt, proceduresAt, importTableAt, fixupRecordsAt] at hplace
  omega

theorem fits_objectEntries : ∀ o ∈ b.objectEntries, o.Fits :=
  fits_entriesFrom hb.objects (pages_lt hb)

theorem length_objectTable : b.objectTable.length = 24 * b.objects.length := by
  have hentry : ∀ o ∈ b.objectEntries, (ObjectEntry.encode b.order o).length = 24 :=
    fun o ho => Layout.length_encode (fits_objectEntries hb o ho)
  rw [objectTable, List.length_flatMap, List.map_congr_left hentry, List.map_const',
    List.sum_replicate, objectEntries, length_entriesFrom, smul_eq_mul, Nat.mul_comm]

theorem pageSize_lt : b.pageSize < Word.bound 4 := by
  obtain ⟨k, hk, hsize⟩ := hb.pageSize
  rw [hsize, Nat.one_shiftLeft]
  exact Nat.pow_lt_pow_right (by decide) hk

theorem lastPageSize_le (hle : b.signature = .le) : b.lastPageSize ≤ b.pageSize := by
  rw [lastPageSize]
  split
  · rename_i page hlast
    exact hb.leData hle page (List.mem_of_getLast? hlast)
  · exact Nat.zero_le _

/-- Every word of the header fits: offsets and counts do because the page data start in range. -/
theorem fits_header : b.header.Fits := by
  have hplace := hb.pageDataAt
  have hobjects := length_objectTable hb
  have hmodules : b.importModules.length ≤ b.importTable.length :=
    length_le_flatMap fun name _ => by rw [countedName]; exact Nat.succ_pos _
  have hpages := pages_lt hb
  have hsize := pageSize_lt hb
  have hlast := lastPageSize_le hb
  have hshift : b.header.shiftOrLastSize < Word.bound 4 := by
    have hbound : 32 < Word.bound 4 := by decide
    have hpageShift := hb.pageShift
    simp only [header]
    split
    · have := hlast ‹_›
      omega
    · omega
  have hresident : b.header.residentNameTable ≤ b.residentAt := by
    simp only [header]
    split <;> omega
  have hwords : b.header.toWords.drop 3 = [0, 0, b.pages.length, 0, 0, 0, 0, b.pageSize,
    b.header.shiftOrLastSize, b.fixupPageTable.length + b.fixupRecords.length, 0, 0, 0, Header.size,
    b.objects.length, b.pageTableAt, 0, 0, 0, b.header.residentNameTable, 0, 0, 0,
    b.fixupPageTableAt, b.fixupRecordsAt, b.importTableAt, b.importModules.length, b.proceduresAt,
    0, b.pageDataAt, 0, 0, 0, 0, 0, 0, 0, 0, 0, 0, 0] := rfl
  rw [Header.fits_iff, hwords]
  -- what the page data stand behind is smaller than where they start
  simp only [pageDataAt, proceduresAt, importTableAt, fixupRecordsAt, fixupPageTableAt,
    residentAt, pageTableAt] at hplace hresident ⊢
  refine ⟨show 0 < Word.bound 4 by decide, show 2 < Word.bound 2 by decide, ?_, ?_⟩
  · simp only [header]
    split <;> decide
  · simp only [List.forall_mem_cons, List.not_mem_nil, false_imp_iff, implies_true, and_true]
    omega

/-! ## 3. Header and tables -/

-- The header of a module that is laid out is acceptable.
theorem fault?_header {source : Source} (hl : b.Laid source) :
    b.header.fault? source.size b.stub.length = none := by
  have hresidentEnd := hl.residentTable.end_le
  have hresident : b.header.residentNameTable ≤ b.residentAt := by
    simp only [header]
    split <;> omega
  rw [Header.fault?_eq_none_iff]
  refine ⟨?_, ?_, ?_, ?_⟩
  · obtain ⟨k, -, hsize⟩ := hb.pageSize
    exact Header.pageSizeFault?_eq_none_iff.mpr ⟨k, hsize⟩
  · rw [Header.shiftFault?]
    by_cases hle : b.signature = .le
    · have hlast := lastPageSize_le hb hle
      have hshift : b.header.shiftOrLastSize = b.lastPageSize := if_pos hle
      rw [if_pos (show b.header.signature = .le from hle), hshift,
        if_neg (show ¬b.header.pageSize < b.lastPageSize from Nat.not_lt.mpr hlast)]
    · have hpageShift := hb.pageShift
      have hshift : b.header.shiftOrLastSize = b.pageShift := if_neg hle
      rw [if_neg (show b.header.signature ≠ .le from hle), hshift, if_neg (by omega)]
  · have hobjectsEnd := hl.objectTable.end_le
    have hpagesEnd := hl.pageTable.end_le
    have hstartsEnd := hl.fixupPageTable.end_le
    have hrecordsEnd := hl.fixupRecords.end_le
    have hmodulesEnd := hl.importTable.end_le
    have hproceduresEnd := hl.importProcedures.end_le
    rw [Header.pastEnd?_eq_none_iff]
    simp only [Header.relativeOffsets, List.forall_mem_cons, List.not_mem_nil, false_imp_iff,
      implies_true, and_true]
    simp only [header] at hresident ⊢
    omega
  · have hdataEnd := hl.pageData.end_le
    rw [Header.pastEnd?_eq_none_iff]
    simp only [Header.fileOffsets, List.forall_mem_cons, List.not_mem_nil, false_imp_iff,
      implies_true, and_true, header]
    omega

theorem read_header {source : Source} (hl : b.Laid source) :
    Header.read source b.stub.length = .ok (b.header, b.stub.length + Header.size) :=
  Header.read_eq_ok_iff.mpr ⟨fits_header hb, hl.header, fault?_header hb hl, rfl⟩

theorem read_objects {source : Source} (hl : b.Laid source) (horder : source.order = b.order) :
    ObjectEntry.readTable source (b.stub.length + b.header.objectTable) b.header.objectCount =
      .ok (b.objectEntries, b.stub.length + b.header.objectTable +
        b.header.objectCount * ObjectEntry.layout.size) := by
  have hlength : b.objectEntries.length = b.objects.length := length_entriesFrom _ _ _
  refine ObjectEntry.readTable_eq_ok_iff.mpr ⟨hlength, ?_, fits_objectEntries hb, ?_, rfl⟩
  · rw [hlength]
    exact number_entriesFrom _ _ _
  · rw [horder]
    exact hl.objectTable

-- What the page table stores of a page fits its fields.
theorem storedAs_storedPages : ∀ page ∈ b.storedPages, PageEntry.StoredAs b.pageForm page := by
  intro stored hstored
  obtain ⟨page, hpage, rfl⟩ := List.mem_map.mp hstored
  refine ⟨?_, rfl⟩
  have hcode : page.kind.code < 6 := by cases page.kind <;> decide
  by_cases hle : b.signature = .le
  · obtain ⟨hsize, hoffset⟩ := placeLE_stored page (placed_of_eq hle ▸ hpage)
    have hcount := hb.leCount hle
    rw [Nat.zero_add, ← dataPages] at hoffset
    rw [pageForm, if_pos hle]
    exact ⟨hsize, Nat.lt_trans hcode (by decide), Nat.lt_of_le_of_lt hoffset hcount⟩
  · have hsize := placeLX_size_lt (by decide) (hb.lxData hle) page (placed_of_ne hle ▸ hpage)
    rw [pageForm, if_neg hle]
    exact ⟨hb.lxOffsets hle page hpage, hsize, Nat.lt_trans hcode (by decide)⟩

theorem read_pages {source : Source} (hl : b.Laid source) (horder : source.order = b.order) :
    PageEntry.readTable source (b.stub.length + b.header.objectPageTable) b.header.pageCount
      b.header.pageForm b.header.pageSize b.header.lastPageSize =
      .ok (b.pageEntries, b.stub.length + b.header.objectPageTable +
        b.header.pageCount * b.pageForm.entrySize) := by
  refine PageEntry.readTable_eq_ok_iff.mpr ⟨b.storedPages, length_storedPages b,
    storedAs_storedPages hb, ?_, rfl, rfl⟩
  rw [horder, storedPages, List.flatMap_map]
  exact hl.pageTable

/-- Header and tables of a module that is laid out. -/
def tables (b : Blueprint) (source : Source) : Tables where
  source
  offset := b.stub.length
  header := b.header
  objects := b.objectEntries
  pageTable := b.pageEntries

theorem read_tables (order : ByteOrder) :
    Tables.read (b.source order) b.stub.length = .ok (b.tables (b.source b.order)) := by
  have hl := laid_source (fits_header hb) b.order
  have hpages : b.header.objectPageTable ≠ 0 := b.places_pos.1.ne'
  have hobjects : b.header.objectTable ≠ 0 := show Header.size ≠ 0 by decide
  exact Tables.read_eq_ok_iff.mpr ⟨rfl, rfl, read_header hb (laid_source (fits_header hb) order),
    fun _ => hobjects, ⟨_, read_objects hb hl rfl⟩, fun _ => hpages, ⟨_, read_pages hb hl rfl⟩⟩

end Fields

/-! ## 4. Fixups -/

/-- The records of a page are the same wherever its bytes are. -/
theorem decodePage_of_recordsOf {source : Source} {page : PageSpec} {records : List Record}
    (hrecords : recordsOf source.order page = .ok records) {offset : Int}
    (hheld : source.Holds offset page.fixups) (bestEffort : Bool) (number : Nat) :
    Fixup.decodePage source bestEffort ⟨number, offset, page.fixups.length⟩ =
      .ok ⟨records, none⟩ := by
  obtain ⟨hwell, hown, hlen⟩ := Fixup.decodeRange_eq_ok_iff.mp hrecords
  have hfixups : Source.Holds ⟨⟨page.fixups.toArray⟩, source.order⟩ 0 page.fixups :=
    ⟨[], [], by rw [Source.toList]; simp, rfl⟩
  -- the bytes are the encodings of the records, and these are decoded anywhere
  have hsame : page.fixups = records.flatMap (Record.encode source.order) :=
    hfixups.eq hown (by exact_mod_cast hlen)
  have hstrict : (Fixup.decodeRange source offset page.fixups.length number).strict =
      .ok records :=
    Fixup.decodeRange_eq_ok_iff.mpr ⟨hwell, hsame ▸ hheld, by rw [hsame]⟩
  rw [Fixup.decodePage, Fixup.strict_eq_ok_iff.mp hstrict]
  rfl

-- Where the fixup records are held, the fixups of all pages are decoded.
theorem decodePages_startsFrom {source : Source} {table : Int} {start first : Nat}
    {pages : List PageSpec} {records : List (List Record)} (bestEffort : Bool)
    (hrecords : List.Forall₂ (fun page rs => recordsOf source.order page = .ok rs) pages records)
    (hheld : source.Holds (table + start) (pages.flatMap PageSpec.fixups)) :
    (((((startsFrom start pages).map Int.ofNat).zip
        ((startsFrom start pages).map Int.ofNat).tail).zipIdx first).map
          fun ((start, stop), page) =>
            (⟨page, table + start, stop - start⟩ : Fixup.PageRange)).mapM
      (Fixup.decodePage source bestEffort) = .ok (records.map fun rs => ⟨rs, none⟩) := by
  -- the start of the records and the number of the page move on with the pages
  induction hrecords generalizing start first with
  | nil => rfl
  | @cons page rs pages records hpage _ ih =>
    rw [List.flatMap_cons, Source.holds_append_iff] at hheld
    obtain ⟨rest, hrest⟩ : ∃ rest, startsFrom (start + page.fixups.length) pages =
        (start + page.fixups.length) :: rest := by
      cases pages <;> exact ⟨_, rfl⟩
    have hlater := @ih (start + page.fixups.length) (first + 1)
      (by push_cast; rw [← Int.add_assoc]; exact hheld.2)
    have hhead : Fixup.decodePage source bestEffort ⟨first, table + start,
        ((start + page.fixups.length : Nat) : Int) - start⟩ = .ok ⟨rs, none⟩ := by
      rw [show ((start + page.fixups.length : Nat) : Int) - start = page.fixups.length by omega]
      exact decodePage_of_recordsOf hpage hheld.1 bestEffort first
    rw [startsFrom]
    rw [hrest] at hlater ⊢
    rw [List.map_cons, List.tail_cons, List.map_cons, List.zip_cons_cons, List.zipIdx_cons,
      List.map_cons, List.mapM_cons]
    refine Except.bind_eq_ok_iff.mpr ⟨_, hhead, ?_⟩
    exact Except.bind_eq_ok_iff.mpr ⟨_, hlater, rfl⟩

-- The starts of the pages never decrease and end with the number of all bytes.
theorem startsFrom_bounds {start : Nat} {pages : List PageSpec} :
    (∀ n ∈ startsFrom start pages, start ≤ n ∧
      n ≤ start + (pages.flatMap PageSpec.fixups).length) ∧
      (startsFrom start pages).Pairwise (· ≤ ·) := by
  induction pages generalizing start with
  | nil => simp [startsFrom]
  | cons page pages ih =>
    obtain ⟨hbounds, hsorted⟩ := @ih (start + page.fixups.length)
    rw [startsFrom, List.flatMap_cons, List.length_append, List.forall_mem_cons,
      List.pairwise_cons]
    refine ⟨⟨by omega, fun n hn => ?_⟩, fun n hn => ?_, hsorted⟩
    · have := hbounds n hn
      omega
    · have := hbounds n hn
      omega

section Stages

variable {b : Blueprint} (hb : b.Buildable) {source : Source} (hl : b.Laid source)
include hb hl

theorem fixupPageTable?_tables (horder : source.order = b.order) :
    (b.tables source).fixupPageTable? = .ok (some b.fixupStarts) := by
  have hbounds := @startsFrom_bounds 0 b.pages
  have hplace := hb.pageDataAt
  obtain ⟨-, -, hstarts, hrecords, -⟩ := b.places_pos
  have htable : Fixup.readPageTable source (b.stub.length + b.fixupPageTableAt)
      b.pageEntries.length = .ok b.fixupStarts := by
    rw [Fixup.readPageTable_eq_ok_iff, horder, length_pageEntries]
    refine ⟨length_startsFrom 0 b.pages, fun n hn => ?_, hl.fixupPageTable, hbounds.2⟩
    -- the records are in front of the page data, which start in range
    have hle := (hbounds.1 n hn).2
    simp only [pageDataAt, proceduresAt, importTableAt, fixupRecords] at hplace
    omega
  rw [Tables.fixupPageTable?,
    if_neg (show (b.tables source).header.fixupPageTable ≠ 0 from hstarts.ne')]
  apply Except.bind_eq_ok_iff.mpr
  refine ⟨_, htable, ?_⟩
  split
  · rename_i hnone
    have hlen := length_startsFrom 0 b.pages
    rw [← fixupStarts, List.getLast?_eq_none_iff.mp hnone] at hlen
    contradiction
  · rw [if_neg fun h => hrecords.ne' h.2]
    rfl

theorem fixups_tables (horder : source.order = b.order) (effort : Effort)
    {records : List (List Record)}
    (hrecords : List.Forall₂ (fun page rs => recordsOf b.order page = .ok rs) b.pages records) :
    (b.tables source).fixups effort =
      .ok (b.fixupStarts, records.map fun rs => ⟨rs, none⟩) := by
  have hpages : ((b.tables source).fixupOutcomes effort b.fixupStarts).mapM id =
      .ok (records.map fun rs => ⟨rs, none⟩) := by
    rw [← horder] at hrecords
    rw [Tables.fixupOutcomes, Fixup.pageOutcomes, Pool.map_eq, List.mapM_map]
    apply decodePages_startsFrom effort.bestEffort hrecords
    rw [Int.natCast_zero, Int.add_zero]
    exact hl.fixupRecords
  rw [Tables.fixups, fixupPageTable?_tables hb hl horder, Except.bind_ok]
  dsimp only
  rw [hpages]
  rfl

end Stages

/-! ## 5. Names -/

-- ASCII names are read as they were written.
theorem nameText_asciiBytes {name : String} (h : ∀ c ∈ name.toList, c.toNat < 128) :
    nameText (asciiBytes name) = name := by
  have hchars : ∀ c ∈ name.toList,
      (fun byte : UInt8 => if byte.toNat < 0x80 then Char.ofNat byte.toNat else '\ufffd')
        (UInt8.ofNat c.toNat) = c := fun c hc => by
    have hascii := h c hc
    have hbyte : (UInt8.ofNat c.toNat).toNat = c.toNat := by
      rw [UInt8.toNat_ofNat']
      omega
    dsimp only
    rw [hbyte, if_pos hascii, Char.ofNat_toNat]
  have hall := (List.map_congr_left hchars).trans (List.map_id _)
  rw [nameText, asciiBytes, List.map_map]
  exact (congrArg String.ofList hall).trans String.ofList_toList

theorem length_asciiBytes (name : String) : (asciiBytes name).length = name.length := by
  rw [asciiBytes, List.length_map, String.length_toList]

theorem importModules_tables {b : Blueprint} (hb : b.Buildable) {source : Source}
    (hl : b.Laid source) : (b.tables source).importModules = .ok b.importModules := by
  have hshort : ∀ name ∈ b.importModules.map asciiBytes, name.length < 256 := by
    intro raw hraw
    obtain ⟨name, hname, rfl⟩ := List.mem_map.mp hraw
    rw [length_asciiBytes]
    exact (hb.importModules name hname).2
  have hheld := hl.importTable
  rw [importTable, ← List.flatMap_map] at hheld
  have hread := readNames_of_holds hshort hheld
  have hnames : (b.importModules.map asciiBytes).map nameText = b.importModules := by
    rw [List.map_map]
    exact (List.map_congr_left fun name hname =>
      nameText_asciiBytes (hb.importModules name hname).1).trans (List.map_id _)
  rw [List.length_map, hnames] at hread
  have hpresent : b.importTableAt ≠ 0 := b.places_pos.2.2.2.2.1.ne'
  exact Except.bind_eq_ok_iff.mpr ⟨_, tableOffset_eq_ok_iff.mpr ⟨fun _ => hpresent, rfl⟩, hread⟩

theorem residentNames_tables {b : Blueprint} (hb : b.Buildable) {source : Source}
    (hl : b.Laid source) (horder : source.order = b.order) :
    (b.tables source).residentNames = .ok b.residentNames := by
  rw [Tables.residentNames]
  by_cases hnone : b.residentNames = []
  · rw [if_pos (show (b.tables source).header.residentNameTable = 0 from if_pos hnone), hnone]
  · have htable : b.header.residentNameTable = b.residentAt := if_neg hnone
    have hpresent : b.header.residentNameTable ≠ 0 := htable ▸ b.places_pos.2.1.ne'
    have hentries : ∀ e ∈ b.residentNames.map fun r => (asciiBytes r.name, r.ordinal),
        IsResident e := by
      intro e he
      obtain ⟨r, hr, rfl⟩ := List.mem_map.mp he
      obtain ⟨hname, hne, hordinal⟩ := hb.residentNames r hr
      refine ⟨fun hempty => hne ?_, by rw [length_asciiBytes]; exact hname.2, hordinal⟩
      -- a name without bytes is read as the empty one, and names are read as they were written
      rw [← nameText_asciiBytes hname.1, show asciiBytes r.name = [] from hempty]
      rfl
    have hheld := hl.residentTable
    rw [residentTable, if_neg hnone, ← horder] at hheld
    rw [if_neg (show (b.tables source).header.residentNameTable ≠ 0 from hpresent),
      show (b.tables source).header.residentNameTable = b.residentAt from htable]
    have hread := ResidentName.readTable_of_holds hentries (by rw [List.flatMap_map]; exact hheld)
    rw [List.map_map] at hread
    refine hread.trans (congrArg Except.ok ?_)
    refine (List.map_congr_left fun r hr => ?_).trans (List.map_id _)
    show ResidentName.mk (nameText (asciiBytes r.name)) r.ordinal = r
    rw [nameText_asciiBytes (hb.residentNames r hr).1.1]

-- The name at an offset of the import procedure table, read where the table is.
theorem readCounted_of_namedAt {b : Blueprint} {source : Source} (hl : b.Laid source)
    {offset : Int} {name : List UInt8} (h : b.NamedAt offset name) :
    source.readCounted (b.stub.length + b.proceduresAt + offset) =
      .ok (name, b.stub.length + b.proceduresAt + offset + 1 + name.length) := by
  obtain ⟨hlen, before, after, hbytes, rfl⟩ := h
  have hheld := hl.importProcedures
  rw [hbytes, Source.holds_append_iff, Source.holds_append_iff] at hheld
  exact Source.readCounted_eq_ok_iff.mpr ⟨hlen, hheld.1.2, rfl⟩

/-- The import procedures of a module: the names that its by-name fixups refer to, in ascending
order of place. -/
structure Procedures (b : Blueprint) (fixups : List (List Record)) (found : List (Int × String)) :
    Prop where
  ascending : (found.map Prod.fst).Pairwise (· < ·)
  complete : ∀ offset, offset ∈ found.map Prod.fst ↔
    ∃ records ∈ fixups, ∃ r ∈ records, r.target.nameOffset? = some offset
  named : ∀ entry ∈ found, ∃ name, b.NamedAt entry.1 name ∧ entry.2 = nameText name

theorem importProcedures_tables {b : Blueprint} (hb : b.Buildable) {source : Source}
    (hl : b.Laid source) {records : List (List Record)}
    (hrecords : List.Forall₂ (fun page rs => recordsOf b.order page = .ok rs) b.pages records) :
    ∃ found, (b.tables source).importProcedures (records.map fun rs => ⟨rs, none⟩) = .ok found ∧
      b.Procedures records found := by
  -- a place that is looked up is that of some record, so a name stands there
  have hread : ∀ offset ∈ Tables.nameOffsets (records.map fun rs => ⟨rs, none⟩),
      ∃ entry, (source.readCounted (b.stub.length + b.proceduresAt + offset) >>=
        fun x => .ok (offset, nameText x.1)) = .ok entry ∧
          (entry.1 = offset ∧ ∃ name, b.NamedAt entry.1 name ∧ entry.2 = nameText name) := by
    intro offset hoffset
    obtain ⟨page, hpage, r, hr, hname⟩ := Tables.mem_nameOffsets.mp hoffset
    obtain ⟨rs, hrs, rfl⟩ := List.mem_map.mp hpage
    obtain ⟨spec, hspec, hdecoded⟩ := exists_left_of_forall₂ hrecords hrs
    obtain ⟨name, hnamed⟩ := hb.importProcedures spec hspec rs hdecoded r hr offset hname
    refine ⟨(offset, nameText name), ?_, rfl, name, hnamed, rfl⟩
    rw [readCounted_of_namedAt hl hnamed]
    rfl
  obtain ⟨found, hfound, hall⟩ := Except.exists_mapM_eq_ok hread
  have hplaces : Tables.nameOffsets (records.map fun rs => ⟨rs, none⟩) = found.map Prod.fst := by
    rw [← List.forall₂_eq_eq_eq, List.forall₂_map_right_iff]
    exact hall.imp fun _ _ h => h.1.symm
  have hpresent : b.proceduresAt ≠ 0 := b.places_pos.2.2.2.2.2.ne'
  refine ⟨found, ?_, ?_, fun offset => ?_, fun entry hentry => ?_⟩
  · exact Except.bind_eq_ok_iff.mpr ⟨_, tableOffset_eq_ok_iff.mpr ⟨fun _ => hpresent, rfl⟩, hfound⟩
  · rw [← hplaces]
    exact Tables.nameOffsets_pairwise _
  · rw [← hplaces, Tables.mem_nameOffsets]
    simp only [List.mem_map, exists_exists_and_eq_and]
  · obtain ⟨_, -, -, hname⟩ := exists_left_of_forall₂ hall hentry
    exact hname

/-! ## 6. The whole module -/

-- The objects of a module that is laid out own all its pages.
theorem checkOwnership_tables (b : Blueprint) :
    Tables.checkOwnership b.objectEntries b.pageEntries = .ok () := by
  rw [checkOwnership_eq_ok_iff, objectEntries, pageNumbers_entriesFrom, length_pageEntries]
  rfl

/-- The module that a blueprint describes, given the fixup records of its pages and the names that
these import. -/
def image (b : Blueprint) (records : List (List Record)) (procedures : List (Int × String))
    (path : String) (dosHeader? : Option DosHeader) : ModuleImage where
  path
  header := b.header
  headerOffset := b.stub.length
  dosHeader?
  objects := b.objectEntries
  pageTable := b.pageEntries
  fixupPageTable := b.fixupStarts
  fixupPages := records.map fun rs => ⟨rs, none⟩
  pages := b.storedBytes b.pages
  importModules := b.importModules
  importProcedures := procedures
  residentNames := b.residentNames

/-- Decoding a module that is laid out, stage by stage. -/
theorem decode_image {b : Blueprint} (hb : b.Buildable) (order : ByteOrder) (effort : Effort)
    (path : String) (dosHeader? : Option DosHeader) {records : List (List Record)}
    {procedures : List (Int × String)}
    (hrecords : List.Forall₂ (fun page rs => recordsOf b.order page = .ok rs) b.pages records)
    (hprocedures : (b.tables (b.source b.order)).importProcedures
      (records.map fun rs => ⟨rs, none⟩) = .ok procedures) :
    ModuleImage.decode (b.source order) b.stub.length effort path dosHeader? =
      .ok (b.image records procedures path dosHeader?) := by
  have hl := laid_source (fits_header hb) b.order
  have hpages : (b.tables (b.source b.order)).pageData = .ok (b.storedBytes b.pages) :=
    Except.bind_eq_ok_iff.mpr ⟨(), checkOwnership_tables b, mapM_readPage hb rfl hl.pageData⟩
  refine ModuleImage.decode_eq_ok_iff.mpr ⟨_, read_tables hb order, ?_, rfl, rfl⟩
  exact ⟨rfl, rfl, rfl, rfl, fixups_tables hb hl rfl effort hrecords, hpages,
    importModules_tables hb hl, hprocedures, residentNames_tables hb hl rfl⟩

/-- A module is what a blueprint says: its objects and pages, numbered from one, the bytes and the
fixup records of its pages, and its names; nothing was left out. -/
structure Realized (b : Blueprint) (m : ModuleImage) : Prop where
  header : m.header = b.header
  headerOffset : m.headerOffset = b.stub.length
  objects : m.objects = b.objectEntries
  pageNumbers : m.pageTable.map PageEntry.number = List.range' 1 b.pages.length
  pageKinds : m.pageTable.map PageEntry.kind = b.pages.map PageSpec.kind
  pages : m.pages = b.storedBytes b.pages
  fixupPageTable : m.fixupPageTable = b.fixupStarts
  fixups : List.Forall₂ (fun page rs => recordsOf b.order page = .ok rs) b.pages m.fixups
  diagnostics : m.diagnostics = []
  importModules : m.importModules = b.importModules
  importProcedures : b.Procedures m.fixups m.importProcedures
  residentNames : m.residentNames = b.residentNames

theorem realized_image {b : Blueprint} {records : List (List Record)}
    {procedures : List (Int × String)}
    (hrecords : List.Forall₂ (fun page rs => recordsOf b.order page = .ok rs) b.pages records)
    (hfound : b.Procedures records procedures) (path : String) (dosHeader? : Option DosHeader) :
    b.Realized (b.image records procedures path dosHeader?) := by
  have hfixups : (b.image records procedures path dosHeader?).fixups = records := by
    rw [ModuleImage.fixups, image, List.map_map]
    exact List.map_id _
  refine ⟨rfl, rfl, rfl, ?_, ?_, rfl, rfl, ?_, ?_, rfl, ?_, rfl⟩
  · show b.pageEntries.map PageEntry.number = _
    rw [pageEntries, PageEntry.number_ofStored, length_storedPages]
  · show b.pageEntries.map PageEntry.kind = _
    rw [pageEntries, PageEntry.kind_ofStored, storedPages, List.map_map, ← kind_placed]
    rfl
  · rw [hfixups]
    exact hrecords
  · rw [ModuleImage.diagnostics, Fixup.diagnosticsOf, image, List.filterMap_map,
      List.filterMap_eq_nil_iff]
    exact fun _ _ => rfl
  · rw [hfixups]
    exact hfound

theorem recordsOf_sample : ∀ page ∈ sample.pages,
    recordsOf sample.order page = .ok (if page.fixups = [] then [] else [sampleRecord]) := by
  decide +kernel

theorem buildable_sample : sample.Buildable where
  pageSize := ⟨4, by decide, rfl⟩
  pageShift := by decide
  objects := by decide
  lxData := fun _ => by decide
  lxOffsets := fun _ => by decide
  leData := fun h => by contradiction
  leLast := fun h => by contradiction
  leCount := fun h => by contradiction
  pageDataAt := by decide +kernel
  fixups := fun page hpage => ⟨_, recordsOf_sample page hpage⟩
  importModules := List.forall_mem_singleton.mpr ⟨by simp, by decide⟩
  residentNames := List.forall_mem_cons.mpr ⟨⟨⟨by simp, by decide⟩, by decide, by decide⟩,
    List.forall_mem_singleton.mpr ⟨⟨by simp, by decide⟩, by decide, by decide⟩⟩
  importProcedures := by
    intro page hpage records hdecoded r hr offset hname
    rw [recordsOf_sample page hpage, Except.ok.injEq] at hdecoded
    subst hdecoded
    split at hr
    · contradiction
    · obtain rfl := List.mem_singleton.mp hr
      cases hname
      exact ⟨[0x41, 0x42, 0x43], by decide, [0], [], rfl, rfl⟩

/-- A module that is laid out decodes to what its blueprint says, at every effort and whatever
order the file is read in. -/
theorem decode_source {b : Blueprint} (hb : b.Buildable) (order : ByteOrder) (effort : Effort)
    (path : String) (dosHeader? : Option DosHeader) :
    ∃ m, ModuleImage.decode (b.source order) b.stub.length effort path dosHeader? = .ok m ∧
      b.Realized m ∧ m.path = path ∧ m.dosHeader? = dosHeader? := by
  have hl := laid_source (fits_header hb) b.order
  obtain ⟨records, -, hrecords⟩ := Except.exists_mapM_eq_ok (f := recordsOf b.order)
    fun page hpage => (hb.fixups page hpage).imp fun rs hrs => ⟨hrs, hrs⟩
  obtain ⟨procedures, hprocedures, hfound⟩ := importProcedures_tables hb hl hrecords
  exact ⟨_, decode_image hb order effort path dosHeader? hrecords hprocedures,
    realized_image hrecords hfound path dosHeader?, rfl, rfl⟩

theorem decode_source_sample :
    sample.Buildable ∧
      ∃ m, ModuleImage.decode (sample.source .big) 3 ⟨true, some 4⟩ "SAMPLE.EXE" none = .ok m ∧
        sample.Realized m ∧ m.pages = [[7, 8], [2, 0, 3, 0, 5, 6, 7], []] := by
  obtain ⟨m, hm, hrealized, -⟩ :=
    decode_source buildable_sample .big ⟨true, some 4⟩ "SAMPLE.EXE" none
  exact ⟨buildable_sample, m, hm, hrealized, hrealized.pages⟩

end Blueprint

/-- The sample of a blueprint as it is decoded. -/
def sampleImage : ModuleImage :=
  Blueprint.sample.image [[Blueprint.sampleRecord], [], []] [(1, "ABC")] "SAMPLE.EXE" none

theorem decode_sampleImage :
    ModuleImage.decode (Blueprint.sample.source .little) 3 ⟨false, none⟩ "SAMPLE.EXE" none =
      .ok sampleImage := by
  have hrecords := Blueprint.recordsOf_sample
  refine Blueprint.decode_image Blueprint.buildable_sample .little _ _ _ ?_ (by decide +kernel)
  exact .cons (hrecords _ (by decide)) (.cons (hrecords _ (by decide))
    (.cons (hrecords _ (by decide)) .nil))

end LinearExecutable
