import LinearExecutable.Proofs.Fixup.Pages
import LinearExecutable.Proofs.Image.Blueprint
import LinearExecutable.Proofs.Image.Decoded

/-!
# The fixups of a module

The fixups of every decoded module tile its record table: the records of each page, encoded one
behind the other, are the bytes that the fixup page table gives to the page. Only a page with a
diagnostic leaves some of its bytes, from the record on that the diagnostic is about.
-/

namespace LinearExecutable

open Fixup (Effort PageFixups)

/-! ## 1. Decoding them -/

namespace Tables

/-- There is no fixup page table iff the header says so. -/
theorem fixupPageTable?_eq_none_iff {t : Tables} :
    t.fixupPageTable? = .ok none ↔ t.header.fixupPageTable = 0 := by
  unfold fixupPageTable?
  constructor
  · intro h
    by_contra hpresent
    rw [if_neg hpresent] at h
    obtain ⟨offsets, -, h⟩ := Except.bind_eq_ok_iff.mp h
    split at h
    · contradiction
    · split at h <;> cases h
  · intro habsent
    rw [if_pos habsent]
    rfl

/-- The fixup page table has one offset more than there are pages, and they never decrease. -/
theorem of_fixupPageTable? {t : Tables} {offsets : List Nat}
    (h : t.fixupPageTable? = .ok (some offsets)) :
    t.header.fixupPageTable ≠ 0 ∧ offsets.length = t.pageTable.length + 1 ∧
      offsets.Pairwise (· ≤ ·) := by
  unfold fixupPageTable? at h
  split at h
  · cases h
  · rename_i hpresent
    obtain ⟨found, hread, h⟩ := Except.bind_eq_ok_iff.mp h
    split at h
    · contradiction
    · split at h
      · contradiction
      · cases h
        obtain ⟨hlen, -, -, hsorted⟩ := Fixup.readPageTable_eq_ok_iff.mp hread
        exact ⟨hpresent, hlen, hsorted⟩

/-- Without a fixup page table, pages have no fixups; with one, each page is decoded from its range
of the record table. -/
theorem fixups_eq_ok_iff {t : Tables} {effort : Effort} {offsets : List Nat}
    {pages : List PageFixups} :
    t.fixups effort = .ok (offsets, pages) ↔
      (t.fixupPageTable? = .ok none ∧ offsets = [] ∧
        pages = List.replicate t.pageTable.length ⟨[], none⟩) ∨
      (t.fixupPageTable? = .ok (some offsets) ∧
        (Fixup.pageRanges (t.offset + t.header.fixupRecordTable) (offsets.map Int.ofNat)).mapM
          (Fixup.decodePage t.source effort.bestEffort) = .ok pages) := by
  rw [fixups, Except.bind_eq_ok_iff]
  constructor
  · rintro ⟨offsets?, htable, h⟩
    cases offsets? with
    | none =>
      cases h
      exact .inl ⟨htable, rfl, List.map_const'⟩
    | some found =>
      obtain ⟨kept, hkept, h⟩ := Except.bind_eq_ok_iff.mp h
      cases h
      rw [fixupOutcomes, Fixup.mapM_pageOutcomes] at hkept
      exact .inr ⟨htable, hkept⟩
  · rintro (⟨htable, rfl, rfl⟩ | ⟨htable, hkept⟩)
    · refine ⟨none, htable, ?_⟩
      dsimp only
      rw [List.map_const']
      rfl
    · refine ⟨some offsets, htable, Except.bind_eq_ok_iff.mpr ⟨pages, ?_, rfl⟩⟩
      rw [fixupOutcomes, Fixup.mapM_pageOutcomes]
      exact hkept

end Tables

namespace ModuleImage

/-- Where the fixup records of a module start in the file. -/
def recordTable (m : ModuleImage) : Int := m.headerOffset + m.header.fixupRecordTable

section Decoded

variable {file : Source} {offset : Int} {effort : Effort} {path : String}
  {dosHeader? : Option DosHeader} {m : ModuleImage}

/-- The header counts the entries of the page table. -/
theorem length_pageTable_of_decode (h : decode file offset effort path dosHeader? = .ok m) :
    m.pageTable.length = m.header.pageCount := by
  obtain ⟨t, htables, hm, -, -⟩ := decode_eq_ok_iff.mp h
  obtain ⟨-, -, -, -, -, -, _, hpages⟩ := Tables.read_eq_ok_iff.mp htables
  obtain ⟨pages, hlen, -, -, htable, -⟩ := PageEntry.readTable_eq_ok_iff.mp hpages
  rw [hm.pageTable, hm.header, htable, PageEntry.length_ofStored, hlen]

/-- Either a module has no fixup page table, or its pages are decoded from the ranges that the table
gives them. -/
theorem fixupPages_of_decode (h : decode file offset effort path dosHeader? = .ok m) :
    (m.header.fixupPageTable = 0 ∧ m.fixupPageTable = [] ∧
      m.fixupPages = List.replicate m.header.pageCount ⟨[], none⟩) ∨
    (m.header.fixupPageTable ≠ 0 ∧ m.fixupPageTable.length = m.header.pageCount + 1 ∧
      m.fixupPageTable.Pairwise (· ≤ ·) ∧
      (Fixup.pageRanges m.recordTable (m.fixupPageTable.map Int.ofNat)).mapM
        (Fixup.decodePage (file.withOrder m.order) effort.bestEffort) = .ok m.fixupPages) := by
  have hcount := length_pageTable_of_decode h
  obtain ⟨t, htables, hm, -, -⟩ := decode_eq_ok_iff.mp h
  have hsource := (Tables.read_eq_ok_iff.mp htables).2.1
  rw [← hm.header] at hsource
  rw [hm.pageTable] at hcount
  rcases Tables.fixups_eq_ok_iff.mp hm.fixups with ⟨habsent, hoffsets, hpages⟩ | ⟨hpresent, hpages⟩
  · rw [Tables.fixupPageTable?_eq_none_iff, ← hm.header] at habsent
    exact .inl ⟨habsent, hoffsets, hcount ▸ hpages⟩
  · obtain ⟨hheader, hlen, hsorted⟩ := Tables.of_fixupPageTable? hpresent
    rw [← hm.headerOffset, ← hm.header, hsource] at hpages
    exact .inr ⟨hm.header ▸ hheader, hcount ▸ hlen, hsorted, hpages⟩

theorem fixupPageTable_eq_nil_iff (h : decode file offset effort path dosHeader? = .ok m) :
    m.fixupPageTable = [] ↔ m.header.fixupPageTable = 0 := by
  rcases fixupPages_of_decode h with ⟨habsent, hnil, -⟩ | ⟨hpresent, hlen, -⟩
  · exact iff_of_true hnil habsent
  · refine iff_of_false (fun hnil => ?_) hpresent
    rw [hnil] at hlen
    contradiction

/-- Every page of a module has its fixups. -/
theorem length_fixupPages_of_decode (h : decode file offset effort path dosHeader? = .ok m) :
    m.fixupPages.length = m.header.pageCount := by
  rcases fixupPages_of_decode h with ⟨-, -, hpages⟩ | ⟨-, hlen, -, hpages⟩
  · rw [hpages, List.length_replicate]
  · have hsame := (Except.mapM_eq_ok_iff.mp hpages).length_eq
    rw [Fixup.length_pageRanges, List.length_map, hlen] at hsame
    omega

/-- The diagnostics of a module carry the numbers of their pages. -/
theorem numbered_of_decode (h : decode file offset effort path dosHeader? = .ok m) :
    Fixup.Numbered m.fixupPages := by
  rcases fixupPages_of_decode h with ⟨-, -, hpages⟩ | ⟨-, -, -, hpages⟩
  · intro i kept d hi hd
    rw [hpages] at hi
    obtain ⟨-, rfl⟩ := List.mem_replicate.mp (List.mem_of_getElem? hi)
    contradiction
  · exact Fixup.numbered_of_mapM hpages

-- Without a fixup page table there is nothing to decode.
theorem fixups_of_no_table (h : decode file offset effort path dosHeader? = .ok m)
    (hnil : m.fixupPageTable = []) :
    m.fixups = List.replicate m.header.pageCount [] ∧ m.diagnostics = [] := by
  rcases fixupPages_of_decode h with ⟨-, -, hpages⟩ | ⟨hpresent, -⟩
  · rw [fixups, diagnostics, hpages, List.map_replicate]
    exact ⟨rfl, List.filterMap_replicate_of_none rfl⟩
  · exact absurd ((fixupPageTable_eq_nil_iff h).mp hnil) hpresent

theorem fixupPageTable_of_decode (h : decode file offset effort path dosHeader? = .ok m)
    (htable : m.fixupPageTable ≠ []) :
    m.fixupPageTable.length = m.header.pageCount + 1 ∧ m.fixupPageTable.Pairwise (· ≤ ·) := by
  rcases fixupPages_of_decode h with ⟨-, hnil, -⟩ | ⟨-, hoffsets, hsorted, -⟩
  · exact absurd hnil htable
  · exact ⟨hoffsets, hsorted⟩

-- A diagnostic is about a page of the module.
theorem page_of_mem_diagnostics (h : decode file offset effort path dosHeader? = .ok m)
    {d : Fixup.Diagnostic} (hd : d ∈ m.diagnostics) :
    1 ≤ d.page ∧ d.page ≤ m.header.pageCount := by
  obtain ⟨i, kept, hi, hkept⟩ := Fixup.mem_diagnosticsOf.mp hd
  obtain ⟨hlt, -⟩ := List.getElem?_eq_some_iff.mp hi
  rw [length_fixupPages_of_decode h] at hlt
  have hpage := numbered_of_decode h i kept d hi hkept
  omega

/-- With a fixup page table, a page is decoded from its range, which runs from its own offset to the
next one; its diagnostic is the one of the module that carries its number. -/
theorem exists_page_of_decode (h : decode file offset effort path dosHeader? = .ok m)
    (htable : m.fixupPageTable ≠ []) {p : Nat} (hfirst : 1 ≤ p) (hlast : p ≤ m.header.pageCount) :
    ∃ start stop kept, m.fixupPageTable[p - 1]? = some start ∧
      m.fixupPageTable[p]? = some stop ∧ start ≤ stop ∧ m.fixups[p - 1]? = some kept.records ∧
      (∀ d, d ∈ m.diagnostics ∧ d.page = p ↔ kept.diagnostic? = some d) ∧
      Fixup.decodePage (file.withOrder m.order) effort.bestEffort
        ⟨p, m.recordTable + start, stop - start⟩ = .ok kept := by
  rcases fixupPages_of_decode h with ⟨-, hnil, -⟩ | ⟨-, hlen, hsorted, hpages⟩
  · exact absurd hnil htable
  · obtain ⟨i, rfl⟩ : ∃ i, p = i + 1 := ⟨p - 1, by omega⟩
    have hi : i < m.fixupPageTable.length := by omega
    have hi' : i + 1 < m.fixupPageTable.length := by omega
    have hstart := List.getElem?_eq_getElem hi
    have hstop := List.getElem?_eq_getElem hi'
    obtain ⟨kept, hkept, hpage⟩ := Except.getElem?_of_mapM hpages
      (Fixup.getElem?_pageRanges.mpr ⟨_, _, hstart, hstop, rfl⟩)
    have hle := List.pairwise_iff_getElem.mp hsorted i (i + 1) hi hi' (Nat.lt_succ_self i)
    refine ⟨_, _, kept, hstart, hstop, hle, ?_, fun d => ?_, hpage⟩
    · rw [fixups, List.getElem?_map, Nat.add_sub_cancel, hkept]
      rfl
    · exact (numbered_of_decode h).mem_diagnosticsOf_page hkept

/-! ## 2. Tiling the record table -/

/-- The fixups of a module tile its record table. There are as many fixup pages as pages, and with a
fixup page table one offset more. A page without a diagnostic uses up its range; a page with one,
and there is at most one, is kept up to the place that the diagnostic gives. -/
theorem fixups_tile (h : decode file offset effort path dosHeader? = .ok m) :
    m.pageTable.length = m.header.pageCount ∧ m.fixups.length = m.header.pageCount ∧
    m.pages.length = m.header.pageCount ∧
    m.diagnostics.Pairwise (fun d d' => d.page < d'.page) ∧
    (m.fixupPageTable = [] ↔ m.header.fixupPageTable = 0) ∧
    (m.fixupPageTable = [] →
      m.fixups = List.replicate m.header.pageCount [] ∧ m.diagnostics = []) ∧
    (m.fixupPageTable ≠ [] →
      m.fixupPageTable.length = m.header.pageCount + 1 ∧ m.fixupPageTable.Pairwise (· ≤ ·) ∧
      (∀ d ∈ m.diagnostics, 1 ≤ d.page ∧ d.page ≤ m.header.pageCount) ∧
      ∀ p : Nat, 1 ≤ p → p ≤ m.header.pageCount →
        ∃ start stop records, m.fixupPageTable[p - 1]? = some start ∧
          m.fixupPageTable[p]? = some stop ∧ m.fixups[p - 1]? = some records ∧
          ((∀ d ∈ m.diagnostics, d.page ≠ p) →
            Fixup.totalSize records = stop - start ∧
            file.read (m.recordTable + start) (stop - start) =
              .ok (Fixup.recordBytes m.order records)) ∧
          ∀ d ∈ m.diagnostics, d.page = p →
            Fixup.totalSize records < stop - start ∧
            file.read (m.recordTable + start) (Fixup.totalSize records) =
              .ok (Fixup.recordBytes m.order records) ∧
            d.error.page? = some (p : Int) ∧
            d.error.offset? = some (m.recordTable + start + Fixup.totalSize records)) := by
  have hcount := length_pageTable_of_decode h
  refine ⟨hcount, by rw [fixups, List.length_map, length_fixupPages_of_decode h],
    (consistent_of_decode h).stored.trans hcount, (numbered_of_decode h).pairwise_diagnosticsOf,
    fixupPageTable_eq_nil_iff h, fixups_of_no_table h, fun htable => ?_⟩
  obtain ⟨hoffsets, hsorted⟩ := fixupPageTable_of_decode h htable
  refine ⟨hoffsets, hsorted, fun d hd => page_of_mem_diagnostics h hd, fun p hfirst hlast => ?_⟩
  obtain ⟨start, stop, kept, hstart, hstop, -, hrecords, hmem, hpage⟩ :=
    exists_page_of_decode h htable hfirst hlast
  have htiles := Fixup.tiles_of_decodePage hpage
  refine ⟨start, stop, kept.records, hstart, hstop, hrecords, fun hclean => ?_, fun d hd hdp => ?_⟩
  · have hwhole := htiles.whole (Option.eq_none_iff_forall_ne_some.mpr fun d hd => by
      obtain ⟨hd, hdp⟩ := (hmem d).mpr hd
      exact hclean d hd hdp)
    exact ⟨hwhole, Source.read_eq_ok_iff.mpr ⟨htiles.size.symm.trans hwhole, htiles.held⟩⟩
  · obtain ⟨hlt, -, herror⟩ := htiles.part d ((hmem d).mp ⟨hd, hdp⟩)
    exact ⟨hlt, Source.read_eq_ok_iff.mpr ⟨htiles.size.symm, htiles.held⟩, herror⟩

end Decoded

end ModuleImage

/-- The sample module with a record of no defined kind behind the one of its first page. -/
def Blueprint.brokenSample : Blueprint :=
  { Blueprint.sample with objects := [
    ⟨0x10000, 40, 5, [
      ⟨.legal, [7, 8], [0x07, 0x02, 0, 0, 1, 1, 0, 0x01, 0, 0, 0]⟩,
      ⟨.iterated, [2, 0, 3, 0, 5, 6, 7], []⟩]⟩,
    ⟨0x20000, 16, 3, [⟨.zeroFilled, [], []⟩]⟩] }

namespace ModuleImage

-- What is kept of the broken sample: the record in front of the one that cannot be decoded.
theorem decode_brokenSample :
    ∃ m, decode (Blueprint.brokenSample.source .little) 3 ⟨true, none⟩ "SAMPLE.EXE" none = .ok m ∧
      m.fixupPageTable = [0, 11, 11, 11] ∧ m.fixups = [[Blueprint.sampleRecord], [], []] ∧
      m.diagnostics = [⟨1, ⟨.undefinedKind 1, some 1, some 0, some 1, some 292⟩⟩] ∧
      m.recordTable = 285 ∧ m.header.pageCount = 3 ∧ m.order = .little :=
  Except.exists_eq_ok (by decide +kernel)

/-- The record that is kept of the broken sample is read where its range starts. -/
theorem fixups_tile_brokenSample :
    ∃ m, decode (Blueprint.brokenSample.source .little) 3 ⟨true, none⟩ "SAMPLE.EXE" none = .ok m ∧
      m.diagnostics.map Fixup.Diagnostic.page = [1] ∧
      (Blueprint.brokenSample.source .little).read 285 7 =
        .ok (Fixup.recordBytes .little [Blueprint.sampleRecord]) := by
  obtain ⟨m, hm, htable, hfixups, hdiagnostics, hat, hcount, horder⟩ := decode_brokenSample
  obtain ⟨-, -, -, -, -, -, htiles⟩ := fixups_tile hm
  obtain ⟨-, -, -, hpages⟩ := htiles (by rw [htable]; exact List.cons_ne_nil _ _)
  obtain ⟨start, stop, records, hstart, -, hrecords, -, hpart⟩ := hpages 1 le_rfl (by omega)
  rw [htable] at hstart
  rw [hfixups] at hrecords
  cases hstart
  cases hrecords
  rw [hdiagnostics] at hpart
  obtain ⟨-, hread, -⟩ := hpart _ List.mem_cons_self rfl
  rw [hat, horder] at hread
  exact ⟨m, hm, by rw [hdiagnostics]; rfl, hread⟩

end ModuleImage

end LinearExecutable
