import LinearExecutable.Image.Assembly
import LinearExecutable.Proofs.Image.Blueprint

/-!
# Pages at their places

The two ways to place pages keep their kinds and their order, and what the page table says about a
page leads back to its bytes: in an LX module through offset, shift and size, in an LE module
through the number of its physical page.
-/

namespace LinearExecutable

namespace Blueprint

open PageSpec (someData)

/-! ## 1. What is placed -/

theorem kind_placeLX (shift laid : Nat) (pages : List PageSpec) :
    (placeLX shift laid pages).map Placed.kind = pages.map PageSpec.kind := by
  induction pages generalizing laid with
  | nil => rfl
  | cons page pages ih =>
    rw [placeLX]
    split <;> exact congrArg (page.kind :: ·) (ih _)

theorem kind_placeLE (pageSize physical : Nat) (pages : List PageSpec) :
    (placeLE pageSize physical pages).map Placed.kind = pages.map PageSpec.kind := by
  induction pages generalizing physical with
  | nil => rfl
  | cons page pages ih =>
    rw [placeLE]
    split <;> exact congrArg (page.kind :: ·) (ih _)

theorem bytes_placeLX {b : Blueprint} (h : b.signature ≠ .le) (laid : Nat) (pages : List PageSpec) :
    (placeLX b.pageShift laid pages).map Placed.bytes = b.storedBytes pages := by
  induction pages generalizing laid with
  | nil => rfl
  | cons page pages ih =>
    rw [placeLX, storedBytes]
    by_cases hdata : page.hasData
    · rw [if_pos hdata, if_pos hdata, if_neg (fun hle => h hle.1), List.map_cons, ih]
    · rw [if_neg hdata, if_neg hdata, List.map_cons, ih]
      rfl

theorem bytes_placeLE {b : Blueprint} (h : b.signature = .le) (physical : Nat)
    (pages : List PageSpec) :
    (placeLE b.pageSize physical pages).map Placed.bytes = b.storedBytes pages := by
  induction pages generalizing physical with
  | nil => rfl
  | cons page pages ih =>
    rw [placeLE, storedBytes]
    by_cases hdata : page.hasData
    · rw [if_pos hdata, if_pos hdata, List.map_cons, ih]
      by_cases hmore : someData pages
      · rw [if_pos hmore, if_pos ⟨h, hmore⟩]
      · rw [if_neg hmore, if_neg (fun hle => hmore hle.2)]
    · rw [if_neg hdata, if_neg hdata, List.map_cons, ih]
      rfl

theorem placed_of_eq {b : Blueprint} (h : b.signature = .le) :
    b.placed = placeLE b.pageSize 0 b.pages := by
  rw [placed, h]

theorem placed_of_ne {b : Blueprint} (h : b.signature ≠ .le) :
    b.placed = placeLX b.pageShift 0 b.pages := by
  rw [placed]
  cases hsignature : b.signature with
  | le => exact absurd hsignature h
  | _ => rfl

theorem kind_placed (b : Blueprint) : b.placed.map Placed.kind = b.pages.map PageSpec.kind := by
  by_cases hle : b.signature = .le
  · rw [placed_of_eq hle, kind_placeLE]
  · rw [placed_of_ne hle, kind_placeLX]

theorem bytes_placed (b : Blueprint) : b.placed.map Placed.bytes = b.storedBytes b.pages := by
  by_cases hle : b.signature = .le
  · rw [placed_of_eq hle, bytes_placeLE hle]
  · rw [placed_of_ne hle, bytes_placeLX hle]

theorem length_placed (b : Blueprint) : b.placed.length = b.pages.length := by
  have hkinds := congrArg List.length b.kind_placed
  rwa [List.length_map, List.length_map] at hkinds

/-! ## 2. LX pages -/

theorem le_roundUp {alignment : Nat} (hpos : 0 < alignment) (n : Nat) :
    n ≤ roundUp alignment n := by
  have hdiv := Nat.div_add_mod (n + (alignment - 1)) alignment
  have hmod := Nat.mod_lt (n + (alignment - 1)) hpos
  rw [roundUp, Nat.mul_comm]
  omega

-- A multiple of the alignment loses nothing to the shift.
theorem roundUp_shift (shift n : Nat) :
    roundUp (1 <<< shift) n >>> shift <<< shift = roundUp (1 <<< shift) n := by
  rw [Nat.shiftLeft_eq, Nat.shiftRight_eq_div_pow, roundUp, Nat.one_shiftLeft,
    Nat.mul_div_cancel _ (Nat.two_pow_pos shift)]

/-- The bytes of a page are where `place` leads, if it has data; else there are none. -/
def Found (source : Source) (place : Placed → Int) (page : Placed) : Prop :=
  (page.kind.hasData = true → source.Holds (place page) page.bytes) ∧
    (page.kind.hasData = false → page.bytes = [])

theorem found_absent (source : Source) (place : Placed → Int) {kind : PageKind}
    (h : ¬kind.hasData = true) : Found source place (.absent kind) :=
  ⟨fun hdata => absurd hdata h, fun _ => rfl⟩

/-- Where the page data of an LX module are held, every page is held where its offset leads. -/
theorem placeLX_found {source : Source} {area : Int} {shift laid : Nat} {pages : List PageSpec}
    (h : source.Holds (area + laid) ((placeLX shift laid pages).flatMap Placed.spelled)) :
    ∀ page ∈ placeLX shift laid pages,
      Found source (fun page => area + (page.offset <<< shift : Nat)) page := by
  induction pages generalizing laid with
  | nil => simp [placeLX]
  | cons spec pages ih =>
    have hpos : 0 < 1 <<< shift := by
      rw [Nat.one_shiftLeft]
      exact Nat.two_pow_pos shift
    have hle := le_roundUp hpos laid
    rw [placeLX] at h ⊢
    by_cases hdata : spec.hasData
    · rw [if_pos hdata, List.flatMap_cons, Placed.spelled, List.append_assoc,
        Source.holds_append_iff, Source.holds_append_iff, List.length_replicate] at h
      rw [if_pos hdata, List.forall_mem_cons]
      -- the gap in front of the page leads to the next multiple of the alignment
      have hstart : area + laid + ((roundUp (1 <<< shift) laid - laid : Nat) : Int) =
          area + (roundUp (1 <<< shift) laid : Nat) := by omega
      dsimp only at h ⊢
      rw [hstart] at h
      refine ⟨⟨fun _ => ?_, fun hnone => ?_⟩, ih ?_⟩
      · dsimp only
        rw [roundUp_shift]
        exact h.2.1
      · exact absurd (hdata.symm.trans hnone) (by decide)
      · push_cast
        rw [← Int.add_assoc]
        exact h.2.2
    · rw [if_neg hdata, List.flatMap_cons, show (Placed.absent spec.kind).spelled = [] from rfl,
        List.nil_append] at h
      rw [if_neg hdata, List.forall_mem_cons]
      exact ⟨found_absent source _ hdata, ih h⟩

-- The page table of an LX module gives the sizes of the pages.
theorem placeLX_size {shift laid : Nat} {pages : List PageSpec} :
    ∀ page ∈ placeLX shift laid pages, page.size = page.bytes.length := by
  induction pages generalizing laid with
  | nil => simp [placeLX]
  | cons spec pages ih =>
    rw [placeLX]
    split <;> exact List.forall_mem_cons.mpr ⟨rfl, ih⟩

theorem placeLX_size_lt {shift laid bound : Nat} {pages : List PageSpec} (hpos : 0 < bound)
    (hfit : ∀ page ∈ pages.filter PageSpec.hasData, page.data.length < bound) :
    ∀ page ∈ placeLX shift laid pages, page.size < bound := by
  induction pages generalizing laid with
  | nil => simp [placeLX]
  | cons spec pages ih =>
    rw [placeLX]
    by_cases hdata : spec.hasData
    · rw [List.filter_cons_of_pos hdata, List.forall_mem_cons] at hfit
      rw [if_pos hdata]
      exact List.forall_mem_cons.mpr ⟨hfit.1, ih hfit.2⟩
    · rw [List.filter_cons_of_neg hdata] at hfit
      rw [if_neg hdata]
      exact List.forall_mem_cons.mpr ⟨hpos, ih hfit⟩

/-! ## 3. LE pages -/

theorem someData_iff {pages : List PageSpec} :
    someData pages = true ↔ pages.filter PageSpec.hasData ≠ [] := by
  rw [someData, List.any_eq_true, Ne, List.filter_eq_nil_iff]
  push Not
  rfl

-- Behind the last page with data, no page adds to the file.
theorem placeLE_of_noData {pageSize physical : Nat} {pages : List PageSpec}
    (h : ¬someData pages = true) :
    placeLE pageSize physical pages = pages.map fun page => .absent page.kind := by
  induction pages with
  | nil => rfl
  | cons page pages ih =>
    rw [someData, List.any_cons, Bool.or_eq_true, not_or] at h
    rw [placeLE, if_neg h.1, ih h.2, List.map_cons]

-- The physical pages that hold the pages with data, numbered one behind the other.
theorem placeLE_offsets (pageSize physical : Nat) (pages : List PageSpec) :
    ((placeLE pageSize physical pages).filter (·.kind.hasData)).map Placed.offset =
      List.range' (physical + 1) (pages.filter PageSpec.hasData).length := by
  induction pages generalizing physical with
  | nil => rfl
  | cons spec pages ih =>
    rw [placeLE]
    by_cases hdata : spec.hasData
    · rw [if_pos hdata, List.filter_cons_of_pos (by exact hdata), List.filter_cons_of_pos hdata,
        List.map_cons, ih, List.length_cons, List.range'_succ]
    · rw [if_neg hdata, List.filter_cons_of_neg (by exact hdata), List.filter_cons_of_neg hdata, ih]

theorem placeLE_stored {pageSize physical : Nat} {pages : List PageSpec} :
    ∀ page ∈ placeLE pageSize physical pages,
      page.size = 0 ∧ page.offset ≤ physical + (pages.filter PageSpec.hasData).length := by
  induction pages generalizing physical with
  | nil => simp [placeLE]
  | cons spec pages ih =>
    rw [placeLE]
    by_cases hdata : spec.hasData
    · rw [if_pos hdata, List.filter_cons_of_pos hdata, List.forall_mem_cons, List.length_cons]
      refine ⟨⟨rfl, ?_⟩, fun page hpage => ?_⟩
      · dsimp only
        omega
      · have hlater := ih page hpage
        exact ⟨hlater.1, by omega⟩
    · rw [if_neg hdata, List.filter_cons_of_neg hdata, List.forall_mem_cons]
      exact ⟨⟨rfl, Nat.zero_le _⟩, ih⟩

/-- Every physical page is full but for the last one. -/
theorem placeLE_full {pageSize physical : Nat} {pages : List PageSpec}
    (hfit : ∀ page ∈ pages.filter PageSpec.hasData, page.data.length ≤ pageSize) :
    ∀ page ∈ placeLE pageSize physical pages, page.kind.hasData = true →
      if page.offset = physical + (pages.filter PageSpec.hasData).length then
        ((pages.filter PageSpec.hasData).getLast?.map PageSpec.data) = some page.bytes
      else page.bytes.length = pageSize := by
  induction pages generalizing physical with
  | nil => simp [placeLE]
  | cons spec pages ih =>
    rw [placeLE]
    by_cases hdata : spec.hasData
    · rw [List.filter_cons_of_pos hdata] at hfit ⊢
      rw [if_pos hdata, List.forall_mem_cons]
      rw [List.forall_mem_cons] at hfit
      have hmore := @someData_iff pages
      have hlater := @ih (physical + 1) hfit.2
      -- whether this is the last page with data is whether the others are none
      generalize pages.filter PageSpec.hasData = others at hmore hlater ⊢
      cases others with
      | nil =>
        have hnone : ¬someData pages = true := fun h => hmore.mp h rfl
        refine ⟨fun _ => ?_, fun page hpage hkind => ?_⟩
        · rw [if_neg hnone, if_pos (by rfl)]
          rfl
        · -- no page with data is left
          rw [placeLE_of_noData hnone] at hpage
          obtain ⟨spec', hspec', rfl⟩ := List.mem_map.mp hpage
          exact absurd (List.any_eq_true.mpr ⟨spec', hspec', hkind⟩) hnone
      | cons other others =>
        refine ⟨fun _ => ?_, fun page hpage hkind => ?_⟩
        · rw [if_pos (hmore.mpr (by simp)), if_neg (by simp only [List.length_cons]; omega),
            List.length_append, List.length_replicate]
          omega
        · have hfull := hlater page hpage hkind
          rw [List.length_cons, ← Nat.add_assoc, Nat.add_right_comm, List.getLast?_cons_cons]
          exact hfull
    · rw [List.filter_cons_of_neg hdata] at hfit ⊢
      rw [if_neg hdata, List.forall_mem_cons]
      exact ⟨fun h => absurd h hdata, ih hfit⟩

/-- Where the page data of an LE module are held, every page is held at its physical page. -/
theorem placeLE_found {source : Source} {area : Int} {pageSize physical : Nat}
    {pages : List PageSpec}
    (hfit : ∀ page ∈ pages.filter PageSpec.hasData, page.data.length ≤ pageSize)
    (h : source.Holds (area + physical * pageSize)
      ((placeLE pageSize physical pages).flatMap Placed.spelled)) :
    ∀ page ∈ placeLE pageSize physical pages,
      Found source (fun page => area + (page.offset - 1) * pageSize) page := by
  induction pages generalizing physical with
  | nil => simp [placeLE]
  | cons spec pages ih =>
    rw [placeLE] at h ⊢
    by_cases hdata : spec.hasData
    · rw [List.filter_cons_of_pos hdata, List.forall_mem_cons] at hfit
      rw [if_pos hdata, List.flatMap_cons, Placed.spelled, Source.holds_append_iff] at h
      rw [if_pos hdata, List.forall_mem_cons]
      dsimp only at h ⊢
      rw [List.replicate_zero, List.nil_append] at h
      refine ⟨⟨fun _ => ?_, fun hnone => ?_⟩, ?_⟩
      · have hplace : area + (((physical + 1 : Nat) : Int) - 1) * pageSize =
            area + physical * pageSize := by
          push_cast
          rw [Int.add_sub_cancel]
        dsimp only
        rw [hplace]
        exact h.1
      · exact absurd (hdata.symm.trans hnone) (by decide)
      · by_cases hmore : someData pages = true
        · -- this page is filled up, so the next physical page starts behind it
          apply ih hfit.2
          rw [if_pos hmore] at h
          have hlen : area + ((physical + 1 : Nat) : Int) * pageSize = area + physical * pageSize +
              (spec.data ++ List.replicate (pageSize - spec.data.length) 0).length := by
            rw [List.length_append, List.length_replicate, Nat.add_sub_cancel' hfit.1]
            push_cast
            rw [Int.add_mul, Int.one_mul, Int.add_assoc]
          rw [hlen]
          exact h.2
        · rw [placeLE_of_noData hmore]
          intro page hpage
          obtain ⟨spec', hspec', rfl⟩ := List.mem_map.mp hpage
          refine found_absent source _ fun h => hmore ?_
          exact List.any_eq_true.mpr ⟨spec', hspec', h⟩
    · rw [List.filter_cons_of_neg hdata] at hfit
      rw [if_neg hdata, List.flatMap_cons, show (Placed.absent spec.kind).spelled = [] from rfl,
        List.nil_append] at h
      rw [if_neg hdata, List.forall_mem_cons]
      exact ⟨found_absent source _ hdata, ih hfit h⟩

-- Counting up from `n`, the greatest number is the last.
theorem foldl_max_range' (n count : Nat) :
    (List.range' (n + 1) count).foldl max n = n + count := by
  induction count generalizing n with
  | zero => rfl
  | succ count ih =>
    rw [List.range'_succ, List.foldl_cons, Nat.max_eq_right (Nat.le_succ n), ih]
    omega

/-! ## 4. Reading the pages -/

/-- The pages of a module as its page table stores them. -/
def storedPages (b : Blueprint) : List (PageEntry.Stored × PageKind) :=
  b.placed.map fun page => (page.stored, page.kind)

/-- The entries of the page table. -/
def pageEntries (b : Blueprint) : List PageEntry :=
  PageEntry.ofStored b.pageForm b.pageSize b.header.lastPageSize b.storedPages

/-- The entry of a page at its place. -/
def entryOf (b : Blueprint) (page : Placed) (number : Nat) : PageEntry where
  number
  form := b.pageForm
  offset := page.offset
  kind := page.kind
  size := PageEntry.sizeOf b.pageForm (PageEntry.lastPhysical b.storedPages) b.pageSize
    b.header.lastPageSize page.stored page.kind

theorem pageEntries_eq (b : Blueprint) :
    b.pageEntries = (b.placed.zipIdx 1).map fun x => b.entryOf x.1 x.2 := by
  rw [pageEntries, PageEntry.ofStored, storedPages, List.zipIdx_map, List.map_map]
  rfl

theorem length_storedPages (b : Blueprint) : b.storedPages.length = b.pages.length := by
  rw [storedPages, List.length_map, length_placed]

theorem length_pageEntries (b : Blueprint) : b.pageEntries.length = b.pages.length := by
  rw [pageEntries, PageEntry.length_ofStored, length_storedPages]

theorem lastPhysical_placed {b : Blueprint} (h : b.signature = .le) :
    PageEntry.lastPhysical b.storedPages = b.dataPages.length := by
  have hoffsets := placeLE_offsets b.pageSize 0 b.pages
  rw [PageEntry.lastPhysical, storedPages, List.filter_map, List.map_map, placed_of_eq h]
  exact (congrArg (List.foldl max 0) hoffsets).trans
    ((foldl_max_range' 0 _).trans (Nat.zero_add _))

-- The page table gives the number of the bytes of a page.
theorem sizeOf_placed {b : Blueprint} (hb : b.Buildable) {page : Placed} (hpage : page ∈ b.placed)
    (hdata : page.kind.hasData = true) :
    PageEntry.sizeOf b.pageForm (PageEntry.lastPhysical b.storedPages) b.pageSize
      b.header.lastPageSize page.stored page.kind = page.bytes.length := by
  by_cases hle : b.signature = .le
  · have hfull := placeLE_full (hb.leData hle) page (placed_of_eq hle ▸ hpage) hdata
    have hlast : b.header.lastPageSize = b.lastPageSize := by
      rw [Header.lastPageSize, if_pos (show b.header.signature = .le from hle)]
      exact if_pos hle
    rw [pageForm, if_pos hle, PageEntry.sizeOf, lastPhysical_placed hle, PageEntry.physicalSize,
      hdata, hlast, if_neg (by decide), show page.stored.offset = page.offset from rfl]
    rw [Nat.zero_add, ← dataPages] at hfull
    -- the last physical page has its own size, the others have all of the page size
    by_cases hoffset : page.offset = b.dataPages.length
    · rw [if_pos hoffset] at hfull
      obtain ⟨last, hlastPage, hbytes⟩ := Option.map_eq_some_iff.mp hfull
      have hlastSize : b.lastPageSize = page.bytes.length := by
        rw [Blueprint.lastPageSize, hlastPage, ← hbytes]
      have hne : (b.lastPageSize : Int) ≠ 0 := by
        rw [hlastSize, ← hbytes]
        exact_mod_cast List.length_pos_iff.mpr (hb.leLast hle last hlastPage) |>.ne'
      rw [if_pos ⟨hoffset, hne⟩, hlastSize]
    · rw [if_neg hoffset] at hfull
      rw [if_neg fun h => hoffset h.1, hfull]
  · rw [pageForm, if_neg hle]
    exact congrArg Nat.cast (placeLX_size page (placed_of_ne hle ▸ hpage))

/-- Where the page table of a module places a page. -/
def placeOf (b : Blueprint) (page : Placed) : Int :=
  if b.signature = .le then b.pageDataAt + (page.offset - 1) * b.pageSize
  else b.pageDataAt + (page.offset <<< b.pageShift : Nat)

theorem placed_found {b : Blueprint} (hb : b.Buildable) {source : Source}
    (hheld : source.Holds b.pageDataAt b.pageData) {page : Placed} (hpage : page ∈ b.placed) :
    Found source b.placeOf page := by
  by_cases hle : b.signature = .le
  · have hplace : b.placeOf =
        fun page : Placed => (b.pageDataAt : Int) + (page.offset - 1) * b.pageSize := by
      ext page
      exact if_pos hle
    rw [pageData, placed_of_eq hle] at hheld
    rw [placed_of_eq hle] at hpage
    rw [hplace]
    exact placeLE_found (hb.leData hle) (by simpa using hheld) page hpage
  · have hplace : b.placeOf =
        fun page : Placed => (b.pageDataAt : Int) + (page.offset <<< b.pageShift : Nat) := by
      ext page
      exact if_neg hle
    rw [pageData, placed_of_ne hle] at hheld
    rw [placed_of_ne hle] at hpage
    rw [hplace]
    exact placeLX_found (by simpa using hheld) page hpage

-- The entry of a page with data leads to its place.
theorem pagePosition?_placed {b : Blueprint} {page : Placed} (hpage : page ∈ b.placed)
    (hdata : page.kind.hasData = true) (number : Nat) :
    Tables.pagePosition? b.header (b.entryOf page number) = .ok (some (b.placeOf page)) := by
  rw [Tables.pagePosition?, entryOf, if_neg (by simp [hdata]), placeOf, pageForm]
  by_cases hle : b.signature = .le
  · -- physical pages are numbered from one, so the number is not the zero of a missing page
    have hmem : page.offset ∈ (b.placed.filter (·.kind.hasData)).map Placed.offset :=
      List.mem_map_of_mem (List.mem_filter.mpr ⟨hpage, hdata⟩)
    rw [placed_of_eq hle, placeLE_offsets, List.mem_range'_1] at hmem
    rw [if_pos hle, if_pos hle]
    dsimp only
    rw [if_neg (by omega)]
    rfl
  · have hshift : b.header.pageShift = b.pageShift := by
      rw [Header.pageShift, if_neg (show b.header.signature ≠ .le from hle)]
      exact if_neg hle
    rw [if_neg hle, if_neg hle]
    dsimp only
    rw [if_neg (fun h => h.2 rfl), hshift]
    rfl

-- Where the page data are held, a page is read from the file by its entry.
theorem readPage_placed {b : Blueprint} (hb : b.Buildable) {t : Tables}
    (hheader : t.header = b.header) (hheld : t.source.Holds b.pageDataAt b.pageData)
    {page : Placed} (hpage : page ∈ b.placed) (number : Nat) :
    t.readPage (b.entryOf page number) = .ok page.bytes := by
  obtain ⟨hfound, hnone⟩ := placed_found hb hheld hpage
  rw [Tables.readPage, hheader]
  by_cases hdata : page.kind.hasData = true
  · rw [pagePosition?_placed hpage hdata, Except.bind_ok, entryOf, sizeOf_placed hb hpage hdata]
    exact Source.read_eq_ok_iff.mpr ⟨rfl, hfound hdata⟩
  · rw [Bool.not_eq_true] at hdata
    rw [Tables.pagePosition?, entryOf, if_pos (by simp [hdata]), Except.bind_ok, hnone hdata]
    rfl

theorem forall₂_readPage {b : Blueprint} (hb : b.Buildable) {t : Tables}
    (hheader : t.header = b.header) (hheld : t.source.Holds b.pageDataAt b.pageData)
    {pages : List Placed} (hpages : ∀ page ∈ pages, page ∈ b.placed) (first : Nat) :
    List.Forall₂ (fun (x : Placed × Nat) page => t.readPage (b.entryOf x.1 x.2) = .ok page.bytes)
      (pages.zipIdx first) pages := by
  induction pages generalizing first with
  | nil => exact .nil
  | cons page pages ih =>
    rw [List.forall_mem_cons] at hpages
    exact .cons (readPage_placed hb hheader hheld hpages.1 first) (ih hpages.2 (first + 1))

/-- Where the page data are held, all pages are read. -/
theorem mapM_readPage {b : Blueprint} (hb : b.Buildable) {t : Tables}
    (hheader : t.header = b.header) (hheld : t.source.Holds b.pageDataAt b.pageData) :
    b.pageEntries.mapM t.readPage = .ok (b.storedBytes b.pages) := by
  rw [Except.mapM_eq_ok_iff, ← bytes_placed, pageEntries_eq, List.forall₂_map_left_iff,
    List.forall₂_map_right_iff]
  exact forall₂_readPage hb hheader hheld (fun _ h => h) 1

end Blueprint

end LinearExecutable
