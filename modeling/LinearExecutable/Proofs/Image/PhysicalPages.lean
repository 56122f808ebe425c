import LinearExecutable.Proofs.Header.Acceptance
import LinearExecutable.Proofs.Image.Presence
import LinearExecutable.Proofs.PageTable

/-!
# Physical pages

In an LE module the page table names physical pages, which stand one behind the other in the file.
Pages that name the same one are read from the same bytes; pages that name different ones are read
from bytes that do not overlap, since the last physical page is no longer than the others.
-/

namespace LinearExecutable

open Fixup (Effort)

namespace Header

/-- Where the bytes of a page start in the file. -/
def startOf (h : Header) (page : PageEntry) : Int :=
  h.areaOf page + h.placeInArea page

/-- The places in the file of the bytes of a page. -/
def extent (h : Header) (page : PageEntry) : Set Int :=
  Set.Ico (h.startOf page) (h.startOf page + page.size)

-- The physical pages are numbered from one.
theorem startOf_le {h : Header} {page : PageEntry} (hform : page.form = .le) :
    h.startOf page = h.dataPages + (page.offset - 1 : Nat) * h.pageSize := by
  rw [startOf, areaOf, placeInArea, hform, if_neg fun hlx => PageForm.noConfusion hlx.1]
  push_cast
  rfl

end Header

namespace ModuleImage

section Decoded

variable {file : Source} {offset : Int} {effort : Effort} {path : String}
  {dosHeader? : Option DosHeader} {m : ModuleImage}

-- The page table of an LE module implies the sizes of its pages, and none is longer than a page.
theorem impliedSizes_of_decode (h : decode file offset effort path dosHeader? = .ok m)
    (hle : m.header.signature = .le) :
    (∀ page ∈ m.pageTable, page.form = .le) ∧
      PageEntry.ImpliedSizes m.pageTable m.header.pageSize m.header.shiftOrLastSize ∧
      m.header.shiftOrLastSize ≤ m.header.pageSize := by
  obtain ⟨t, htables, hm, -, -⟩ := decode_eq_ok_iff.mp h
  obtain ⟨-, -, hheader, -, -, -, _, hpages⟩ := Tables.read_eq_ok_iff.mp htables
  rw [← hm.header] at hheader hpages
  obtain ⟨pages, -, -, -, htable, -⟩ := PageEntry.readTable_eq_ok_iff.mp hpages
  rw [Header.pageForm, Header.lastPageSize, if_pos hle, if_pos hle, ← hm.pageTable] at htable
  refine ⟨fun page hpage => ?_, htable ▸ PageEntry.impliedSizes_ofStored pages, ?_⟩
  · rw [htable] at hpage
    obtain ⟨_, -, hform, -⟩ := PageEntry.mem_ofStored hpage
    exact hform
  · exact (Header.read_eq_ok_iff_acceptable.mp hheader).2.2.2.lastPageSize hle

/-- A page with data has the bytes of its place in the file. -/
theorem read_startOf (h : decode file offset effort path dosHeader? = .ok m) {i : Nat}
    {page : PageEntry} (hpage : m.pageTable[i]? = some page) (hdata : page.kind.hasData = true) :
    ∃ data, m.pages[i]? = some data ∧ file.read (m.header.startOf page) page.size = .ok data :=
  (read_of_decode h hpage hdata).2

variable {i j : Nat} {page other : PageEntry}

/-- Pages of one physical page have the same bytes. -/
theorem pages_eq_of_offset (h : decode file offset effort path dosHeader? = .ok m)
    (hle : m.header.signature = .le) (hpage : m.pageTable[i]? = some page)
    (hother : m.pageTable[j]? = some other) (hdata : page.kind.hasData = true)
    (hotherData : other.kind.hasData = true) (hsame : page.offset = other.offset) :
    m.pages[i]? = m.pages[j]? := by
  obtain ⟨hform, hsizes, -⟩ := impliedSizes_of_decode h hle
  have hmem := List.mem_of_getElem? hpage
  have hotherMem := List.mem_of_getElem? hother
  obtain ⟨data, hi, hread⟩ := read_startOf h hpage hdata
  obtain ⟨data', hj, hread'⟩ := read_startOf h hother hotherData
  -- place and size depend on the physical page alone
  rw [Header.startOf_le (hform page hmem), hsame,
    hsizes.size_eq hmem hotherMem hdata hotherData hsame,
    ← Header.startOf_le (hform other hotherMem), hread', Except.ok.injEq] at hread
  rw [hi, hj, hread]

-- A physical page ends before the next one starts.
theorem end_le_start (h : decode file offset effort path dosHeader? = .ok m)
    (hle : m.header.signature = .le) (hpage : m.pageTable[i]? = some page)
    (hother : m.pageTable[j]? = some other) (hdata : page.kind.hasData = true)
    (hlt : page.offset < other.offset) :
    m.header.startOf page + page.size ≤ m.header.startOf other := by
  obtain ⟨hform, hsizes, hcut⟩ := impliedSizes_of_decode h hle
  have hmem := List.mem_of_getElem? hpage
  have hsize := hsizes.size_le (by exact_mod_cast hcut) hmem hdata
  have hpos : page.offset ≠ 0 := (read_of_decode h hpage hdata).1 (hform page hmem)
  have hnext : (page.offset - 1 + 1) * m.header.pageSize ≤
      (other.offset - 1) * m.header.pageSize :=
    Nat.mul_le_mul_right _ (by omega)
  rw [Nat.succ_mul] at hnext
  rw [Header.startOf_le (hform page hmem),
    Header.startOf_le (hform other (List.mem_of_getElem? hother))]
  have hnext' : ((page.offset - 1 : Nat) * m.header.pageSize + m.header.pageSize : Int) ≤
      (other.offset - 1 : Nat) * m.header.pageSize := by exact_mod_cast hnext
  omega

/-- Different physical pages do not overlap. -/
theorem disjoint_extent (h : decode file offset effort path dosHeader? = .ok m)
    (hle : m.header.signature = .le) (hpage : m.pageTable[i]? = some page)
    (hother : m.pageTable[j]? = some other) (hdata : page.kind.hasData = true)
    (hotherData : other.kind.hasData = true) (hne : page.offset ≠ other.offset) :
    Disjoint (m.header.extent page) (m.header.extent other) := by
  rw [Header.extent, Header.extent, Set.Ico_disjoint_Ico]
  rcases Nat.lt_or_gt_of_ne hne with hlt | hgt
  · have hend := end_le_start h hle hpage hother hdata hlt
    exact (min_le_left _ _).trans (hend.trans (le_max_right _ _))
  · have hend := end_le_start h hle hother hpage hotherData hgt
    exact (min_le_right _ _).trans (hend.trans (le_max_left _ _))

end Decoded

end ModuleImage

/-- What becomes of a page table. Without room for it the read runs out of bytes; with room, its
bytes store entries, and it is refused iff one of them has a kind that there is none of, and read as
them otherwise. In an LE module, pages of one physical page have the same bytes, and those of
different ones take different places in the file. -/
theorem pageTable_outcome :
    (∀ (source : Source) (offset : Int) (count : Nat) (form : PageForm)
      (pageSize lastPageSize : Int),
      (¬(0 ≤ offset ∧ offset + count * form.entrySize ≤ source.size) →
        PageEntry.readTable source offset count form pageSize lastPageSize =
          .error (.truncated (.window (count * form.entrySize) offset source.size))) ∧
      (0 ≤ offset → offset + count * form.entrySize ≤ source.size →
        ∃ stored : List PageEntry.Stored, stored.length = count ∧ (∀ s ∈ stored, s.Fits form) ∧
          source.read offset (count * form.entrySize) =
            .ok (stored.flatMap (PageEntry.Stored.encode source.order form)) ∧
          ((∃ s ∈ stored, 5 < s.code) → ∃ i s, stored[i]? = some s ∧ 5 < s.code ∧
            PageEntry.readTable source offset count form pageSize lastPageSize =
              .error (.format (.pageFlags (i + 1) s.code))) ∧
          ((∀ s ∈ stored, s.code ≤ 5) → ∃ table,
            PageEntry.readTable source offset count form pageSize lastPageSize =
              .ok (table, offset + count * form.entrySize) ∧
            PageEntry.ReadsAs source.order form pageSize lastPageSize stored table))) ∧
    ∀ (file : Source) (offset : Int) (effort : Effort) (path : String)
      (dosHeader? : Option DosHeader) (m : ModuleImage),
      ModuleImage.decode file offset effort path dosHeader? = .ok m →
      m.header.signature = .le →
      ∀ (i j : Nat) (page other : PageEntry), m.pageTable[i]? = some page →
        m.pageTable[j]? = some other → page.kind.hasData = true → other.kind.hasData = true →
        (∃ data, m.pages[i]? = some data ∧
          file.read (m.header.startOf page) page.size = .ok data) ∧
        (page.offset = other.offset → m.pages[i]? = m.pages[j]?) ∧
        (page.offset ≠ other.offset →
          Disjoint (m.header.extent page) (m.header.extent other)) := by
  constructor
  · intro source offset count form pageSize lastPageSize
    exact ⟨PageEntry.readTable_of_no_room,
      PageEntry.readTable_of_room pageSize lastPageSize⟩
  · intro file offset effort path dosHeader? m h hle i j page other hpage hother hdata hotherData
    exact ⟨ModuleImage.read_startOf h hpage hdata,
      ModuleImage.pages_eq_of_offset h hle hpage hother hdata hotherData,
      ModuleImage.disjoint_extent h hle hpage hother hdata hotherData⟩

/-- An LE module of three pages, the last of them not full. -/
def Blueprint.physicalSample : Blueprint where
  signature := .le
  order := .big
  pageSize := 4
  pageShift := 0
  stub := []
  objects := [⟨0x10000, 12, 5,
    [⟨.legal, [1, 2, 3, 4], []⟩, ⟨.zeroFilled, [], []⟩, ⟨.legal, [5, 6], []⟩]⟩]
  importModules := []
  importProcedures := []
  residentNames := []

/-- The same module with its first physical page in its second page as well. -/
def Blueprint.sharedSample : Source :=
  ⟨⟨(physicalSample.header.encode ++ physicalSample.objectTable ++
    ([⟨1, .le, 1, 4, .legal⟩, ⟨2, .le, 1, 4, .iterated⟩, ⟨3, .le, 2, 2, .legal⟩].flatMap
      (PageEntry.encode .big)) ++
    physicalSample.file.drop physicalSample.residentAt).toArray⟩, .little⟩

-- What is decoded of it.
theorem decode_sharedSample :
    ∃ m, ModuleImage.decode Blueprint.sharedSample 0 ⟨false, none⟩ "" none = .ok m ∧
      m.header.signature = .le ∧ m.pageTable =
        [⟨1, .le, 1, 4, .legal⟩, ⟨2, .le, 1, 4, .iterated⟩, ⟨3, .le, 2, 2, .legal⟩] :=
  Except.exists_eq_ok (by decide +kernel)

theorem pageTable_outcome_sample :
    PageEntry.readTable Blueprint.sharedSample 0xC8 100 .le 4 2 =
        .error (.truncated (.window 400 0xC8 0xEA)) ∧
      ∃ m, ModuleImage.decode Blueprint.sharedSample 0 ⟨false, none⟩ "" none = .ok m ∧
        m.pages[0]? = m.pages[1]? ∧
        Disjoint (m.header.extent ⟨1, .le, 1, 4, .legal⟩)
          (m.header.extent ⟨3, .le, 2, 2, .legal⟩) := by
  obtain ⟨htables, hpages⟩ := pageTable_outcome
  have hsize : Blueprint.sharedSample.size = 0xEA := by decide +kernel
  have htruncated := (htables Blueprint.sharedSample 0xC8 100 .le 4 2).1
  rw [hsize] at htruncated
  refine ⟨htruncated (by decide), ?_⟩
  obtain ⟨m, hm, hle, htable⟩ := decode_sharedSample
  have hfirst : m.pageTable[0]? = some ⟨1, .le, 1, 4, .legal⟩ := by rw [htable]; rfl
  have hsecond : m.pageTable[1]? = some ⟨2, .le, 1, 4, .iterated⟩ := by rw [htable]; rfl
  have hthird : m.pageTable[2]? = some ⟨3, .le, 2, 2, .legal⟩ := by rw [htable]; rfl
  refine ⟨m, hm, ?_, ?_⟩
  · exact (hpages _ _ _ _ _ m hm hle _ _ _ _ hfirst hsecond rfl rfl).2.1 rfl
  · exact (hpages _ _ _ _ _ m hm hle _ _ _ _ hfirst hthird rfl rfl).2.2 (by decide)

end LinearExecutable
