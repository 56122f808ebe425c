import LinearExecutable.Proofs.Bytes.Refusal
import LinearExecutable.Proofs.Tables

/-!
# What becomes of a page table

The bytes of a table always say what its entries store. The table is refused if they store a kind of
page that there is none of, and read otherwise; its entries, written out again, are those bytes. The
sizes of LE pages are not stored: they follow from which physical page is the last one in use.
-/

namespace LinearExecutable.PageEntry

/-! ## 1. What is stored -/

theorem size_layout (form : PageForm) : (layout form).size = form.entrySize := by
  cases form <;> rfl

theorem size_layout_pos (form : PageForm) : 0 < (layout form).size := by
  cases form <;> decide

theorem length_stored {order : ByteOrder} {form : PageForm} {stored : List Stored}
    (h : ∀ s ∈ stored, s.Fits form) :
    (stored.flatMap (Stored.encode order form)).length = stored.length * form.entrySize := by
  have hlen : ∀ s ∈ stored, (s.encode order form).length = form.entrySize := fun s hs => by
    have hfits := ((stored_eq_iff form _ s).mpr ⟨h s hs, rfl⟩).1
    rw [Stored.encode, Layout.length_encode hfits, size_layout]
  rw [List.length_flatMap, List.map_congr_left hlen, List.map_const', List.sum_replicate_nat]

section Table

variable {source : Source} {offset : Int} {count : Nat} {form : PageForm}
  {pageSize lastPageSize : Int} {stored : List Stored}

theorem readTable_of_no_room
    (h : ¬(0 ≤ offset ∧ offset + count * form.entrySize ≤ source.size)) :
    readTable source offset count form pageSize lastPageSize =
      .error (.truncated (.window (count * form.entrySize) offset source.size)) := by
  have hsize : ((layout form).size * count : Int) = count * form.entrySize := by
    rw [size_layout, Int.mul_comm]
  rw [readTable, Source.unpackMany, hsize, Source.read_eq_error]
  · rfl
  · rintro ⟨hnonneg, -, hroom⟩
    exact h ⟨hnonneg, hroom⟩

-- Any bytes of the size of a table store one.
theorem exists_table (hnonneg : 0 ≤ offset)
    (hroom : offset + count * form.entrySize ≤ source.size) :
    ∃ stored : List Stored, stored.length = count ∧ (∀ s ∈ stored, s.Fits form) ∧
      source.Holds offset (stored.flatMap (Stored.encode source.order form)) := by
  have hsize : ((layout form).size * count : Nat) = count * form.entrySize := by
    rw [size_layout, Nat.mul_comm]
  obtain ⟨bytes, hlen, hheld⟩ : ∃ bytes : List UInt8,
      bytes.length = (layout form).size * count ∧ source.Holds offset bytes :=
    Source.exists_holds _ hnonneg (by rw [hsize]; exact_mod_cast hroom)
  have hread : (source.withOrder (storedOrder source.order form)).read offset
      ((layout form).size * count) = .ok bytes :=
    Source.read_eq_ok_iff.mpr ⟨by rw [hlen]; push_cast; rfl, Source.holds_withOrder_iff.mpr hheld⟩
  obtain ⟨records, hrecords⟩ := Source.exists_unpackMany _ (size_layout_pos form) hread
  obtain ⟨hcount, hfits, htable⟩ := (Source.unpackMany_eq_ok_iff (size_layout_pos form)).mp hrecords
  obtain ⟨stored, hstored⟩ := Option.exists_mapM_eq_some fun r hr => exists_stored (hfits r hr)
  obtain ⟨hall, rfl⟩ := mapM_ofValues?_eq_some_iff.mp ⟨hfits, hstored⟩
  rw [List.flatMap_map] at htable
  exact ⟨stored, by simpa using hcount, hall, htable⟩

/-! ## 2. Kinds -/

-- With what it stores at hand, only the kinds of its pages decide about a table.
theorem readTable_of_holds (hfits : ∀ s ∈ stored, s.Fits form)
    (hheld : source.Holds offset (stored.flatMap (Stored.encode source.order form))) :
    readTable source offset stored.length form pageSize lastPageSize = (do
      let kinds ← (stored.zipIdx 1).mapM fun (page, number) => kindOf number page.code
      return (ofStored form pageSize lastPageSize (stored.zip kinds),
        offset + stored.length * form.entrySize)) := by
  have hvalues := mapM_ofValues?_eq_some_iff.mpr ⟨hfits, rfl⟩
  have hread : (source.withOrder (storedOrder source.order form)).unpackMany (layout form) offset
      stored.length = .ok (stored.map fun s => s.toValues form) := by
    refine (Source.unpackMany_eq_ok_iff (size_layout_pos form)).mpr
      ⟨List.length_map _, hvalues.1, ?_⟩
    rw [List.flatMap_map]
    exact hheld
  rw [readTable, hread, Except.bind_ok, hvalues.2]

theorem code_le (kind : PageKind) : kind.code ≤ 5 := by
  cases kind <;> decide

theorem kindOf_eq_error_iff {number code : Nat} {e : Error} :
    kindOf number code = .error e ↔ 5 < code ∧ e = .format (.pageFlags number code) := by
  rw [← PageKind.ofCode?_eq_none_iff, kindOf]
  cases PageKind.ofCode? code with
  | some kind => simp
  | none => simp [eq_comm]

-- Every number up to five stands for a kind.
theorem exists_kinds (h : ∀ s ∈ stored, s.code ≤ 5) :
    ∃ kinds : List PageKind, stored.map Stored.code = kinds.map PageKind.code := by
  induction stored with
  | nil => exact ⟨[], rfl⟩
  | cons s stored ih =>
    rw [List.forall_mem_cons] at h
    obtain ⟨kinds, hkinds⟩ := ih h.2
    obtain ⟨kind, hkind⟩ := Option.ne_none_iff_exists'.mp fun hnone =>
      absurd ((PageKind.ofCode?_eq_none_iff s.code).mp hnone) (Nat.not_lt.mpr h.1)
    have hcode : kindOf 0 s.code = .ok kind := by rw [kindOf, hkind]
    refine ⟨kind :: kinds, ?_⟩
    rw [List.map_cons, List.map_cons, hkinds, kindOf_eq_ok_iff.mp hcode]

-- A code that stands for no kind is what a table is refused for.
theorem readTable_of_unknown (hfits : ∀ s ∈ stored, s.Fits form)
    (hheld : source.Holds offset (stored.flatMap (Stored.encode source.order form)))
    (hunknown : ∃ s ∈ stored, 5 < s.code) :
    ∃ i s, stored[i]? = some s ∧ 5 < s.code ∧
      readTable source offset stored.length form pageSize lastPageSize =
        .error (.format (.pageFlags (i + 1) s.code)) := by
  rw [readTable_of_holds hfits hheld]
  cases hkinds : (stored.zipIdx 1).mapM fun (page, number) => kindOf number page.code with
  | ok kinds =>
    obtain ⟨s, hs, hcode⟩ := hunknown
    have hmem := List.mem_map_of_mem (f := Stored.code) hs
    rw [mapM_kindOf_eq_ok_iff.mp hkinds] at hmem
    obtain ⟨kind, -, hkind⟩ := List.mem_map.mp hmem
    have hle := code_le kind
    omega
  | error e =>
    obtain ⟨⟨s, number⟩, hmem, hfailed⟩ := Except.exists_of_mapM_eq_error hkinds
    obtain ⟨hfirst, hs⟩ := List.mem_zipIdx_iff_le_and_getElem?_sub.mp hmem
    obtain ⟨hgreat, rfl⟩ := kindOf_eq_error_iff.mp hfailed
    refine ⟨number - 1, s, hs, hgreat, ?_⟩
    rw [Nat.sub_add_cancel hfirst]
    rfl

/-! ## 3. The entries that are read -/

-- An entry is written the way it was stored.
theorem encode_eq (order : ByteOrder) {page : PageEntry} {s : Stored}
    (hoffset : page.offset = s.offset) (hcode : s.code = page.kind.code)
    (hsize : page.form = .lx → page.size = s.size) :
    page.encode order = s.encode order page.form := by
  rw [encode, Stored.encode]
  cases hform : page.form with
  | le =>
    dsimp only
    rw [Stored.toValues, storedOrder, layout, hoffset, ← hcode, Layout.encode_word]
  | lx =>
    dsimp only
    rw [hsize hform, Int.toNat_natCast, Stored.toValues, storedOrder, layout, hoffset, ← hcode,
      Layout.encode_word_cons]
    have hhalves : Layout.encode order [.unsigned 2 2] ([s.size, s.code].map .unsigned) = _ :=
      Layout.encode_unsigned order 2 [s.size, s.code]
    rw [List.map_cons, List.map_cons, List.map_nil] at hhalves
    rw [hhalves, List.flatMap_cons, List.flatMap_singleton, List.append_assoc]

theorem encode_ofStored (order : ByteOrder) {pages : List (Stored × PageKind)}
    (h : ∀ p ∈ pages, StoredAs form p) :
    (ofStored form pageSize lastPageSize pages).flatMap (encode order) =
      pages.flatMap fun p => p.1.encode order form := by
  rw [ofStored, List.flatMap_map]
  conv_rhs => rw [← List.zipIdx_map_fst 1 pages, List.flatMap_map]
  refine List.flatMap_congr fun x hx => ?_
  exact encode_eq order rfl (h _ (List.fst_mem_of_mem_zipIdx hx)).2 fun hform => by
    obtain rfl : form = .lx := hform
    rfl

-- A table whose kinds are all known is read.
theorem exists_readTable (hfits : ∀ s ∈ stored, s.Fits form)
    (hheld : source.Holds offset (stored.flatMap (Stored.encode source.order form)))
    (hknown : ∀ s ∈ stored, s.code ≤ 5) :
    ∃ pages : List (Stored × PageKind), pages.map Prod.fst = stored ∧
      (∀ p ∈ pages, StoredAs form p) ∧
      readTable source offset stored.length form pageSize lastPageSize =
        .ok (ofStored form pageSize lastPageSize pages,
          offset + stored.length * form.entrySize) := by
  obtain ⟨kinds, hkinds⟩ := exists_kinds hknown
  obtain ⟨pages, rfl, rfl⟩ := exists_pairs (by simpa using congrArg List.length hkinds)
  rw [List.map_map, List.map_map, List.map_inj_left] at hkinds
  rw [List.flatMap_map] at hheld
  have hstored : ∀ p ∈ pages, StoredAs form p := fun p hp =>
    ⟨hfits _ (List.mem_map_of_mem hp), hkinds p hp⟩
  refine ⟨pages, rfl, hstored, ?_⟩
  rw [List.length_map]
  exact readTable_eq_ok_iff.mpr ⟨pages, rfl, hstored, hheld, rfl, rfl⟩

/-! ## 4. The sizes of LE pages -/

/-- No page in use has a greater physical number. -/
def IsLast (table : List PageEntry) (page : PageEntry) : Prop :=
  ∀ other ∈ table, other.kind.hasData = true → other.offset ≤ page.offset

/-- The sizes that follow from the physical numbers of the pages: none without data, what the last
page holds on the last one, unless that is not given, and a full page elsewhere. -/
structure ImpliedSizes (table : List PageEntry) (pageSize lastPageSize : Int) : Prop where
  absent : ∀ page ∈ table, page.kind.hasData = false → page.size = 0
  last : ∀ page ∈ table, page.kind.hasData = true → IsLast table page → lastPageSize ≠ 0 →
    page.size = lastPageSize
  full : ∀ page ∈ table, page.kind.hasData = true → ¬(IsLast table page ∧ lastPageSize ≠ 0) →
    page.size = pageSize

-- One of some numbers is their maximum iff none is greater.
theorem eq_foldl_max_iff {ns : List Nat} {n : Nat} (h : n ∈ ns) :
    n = ns.foldl max 0 ↔ ∀ k ∈ ns, k ≤ n := by
  obtain ⟨hmem, hgreatest⟩ :=
    List.max?_eq_some_iff.mp (show (0 :: ns).max? = some (ns.foldl max 0) from rfl)
  constructor
  · rintro rfl k hk
    exact hgreatest k (List.mem_cons_of_mem _ hk)
  · intro hall
    have hle := hgreatest n (List.mem_cons_of_mem _ h)
    rcases List.mem_cons.mp hmem with hzero | hmem
    · omega
    · have := hall _ hmem
      omega

theorem mem_ofStored {pages : List (Stored × PageKind)} {page : PageEntry}
    (h : page ∈ ofStored form pageSize lastPageSize pages) :
    ∃ s, (s, page.kind) ∈ pages ∧ page.form = form ∧ page.offset = s.offset ∧
      page.size = sizeOf form (lastPhysical pages) pageSize lastPageSize s page.kind := by
  obtain ⟨⟨⟨s, kind⟩, number⟩, hmem, rfl⟩ := List.mem_map.mp h
  exact ⟨s, List.fst_mem_of_mem_zipIdx hmem, rfl, rfl, rfl⟩

-- The pages that have data keep their physical numbers.
theorem inUse_ofStored (pages : List (Stored × PageKind)) :
    ((ofStored form pageSize lastPageSize pages).filter fun page => page.kind.hasData).map
        PageEntry.offset =
      (pages.filter fun (_, kind) => kind.hasData).map fun (s, _) => s.offset := by
  rw [ofStored, List.filter_map, List.map_map]
  conv_rhs => rw [← List.zipIdx_map_fst 1 pages, List.filter_map, List.map_map]
  rfl

theorem isLast_iff {table : List PageEntry} {page : PageEntry} :
    IsLast table page ↔
      ∀ n ∈ (table.filter fun other => other.kind.hasData).map PageEntry.offset,
        n ≤ page.offset := by
  simp only [IsLast, List.forall_mem_map, List.mem_filter, and_imp]

theorem impliedSizes_ofStored (pages : List (Stored × PageKind)) :
    ImpliedSizes (ofStored .le pageSize lastPageSize pages) pageSize lastPageSize := by
  have hlast : ∀ page ∈ ofStored .le pageSize lastPageSize pages, page.kind.hasData = true →
      (page.offset = lastPhysical pages ↔
        IsLast (ofStored .le pageSize lastPageSize pages) page) := by
    intro page hpage hdata
    have hused : page.offset ∈
        ((ofStored .le pageSize lastPageSize pages).filter fun other => other.kind.hasData).map
          PageEntry.offset :=
      List.mem_map_of_mem (List.mem_filter.mpr ⟨hpage, hdata⟩)
    rw [inUse_ofStored] at hused
    rw [lastPhysical, isLast_iff, inUse_ofStored]
    exact eq_foldl_max_iff hused
  refine ⟨?_, ?_, ?_⟩
  · intro page hpage hdata
    obtain ⟨s, -, -, -, hsize⟩ := mem_ofStored hpage
    rw [hsize, sizeOf, physicalSize, hdata]
    rfl
  · intro page hpage hdata hislast hgiven
    obtain ⟨s, -, -, hoffset, hsize⟩ := mem_ofStored hpage
    have hmax := (hlast page hpage hdata).mpr hislast
    rw [hsize, sizeOf, physicalSize, hdata, ← hoffset, Bool.not_true, if_neg Bool.false_ne_true,
      if_pos ⟨hmax, hgiven⟩]
  · intro page hpage hdata hnot
    obtain ⟨s, -, -, hoffset, hsize⟩ := mem_ofStored hpage
    rw [hsize, sizeOf, physicalSize, hdata, ← hoffset, Bool.not_true, if_neg Bool.false_ne_true,
      if_neg fun hboth => hnot ⟨(hlast page hpage hdata).mp hboth.1, hboth.2⟩]

namespace ImpliedSizes

variable {table : List PageEntry} {page other : PageEntry}

-- The size of a page depends on its physical page alone.
theorem size_eq (h : ImpliedSizes table pageSize lastPageSize) (hpage : page ∈ table)
    (hother : other ∈ table) (hdata : page.kind.hasData = true)
    (hotherData : other.kind.hasData = true) (hsame : page.offset = other.offset) :
    page.size = other.size := by
  have hlast : IsLast table page ↔ IsLast table other := by rw [IsLast, IsLast, hsame]
  by_cases hcut : IsLast table page ∧ lastPageSize ≠ 0
  · rw [h.last page hpage hdata hcut.1 hcut.2,
      h.last other hother hotherData (hlast.mp hcut.1) hcut.2]
  · rw [h.full page hpage hdata hcut, h.full other hother hotherData (by rwa [← hlast])]

-- A last page that is no longer than the others makes no page longer than that.
theorem size_le (h : ImpliedSizes table pageSize lastPageSize) (hle : lastPageSize ≤ pageSize)
    (hpage : page ∈ table) (hdata : page.kind.hasData = true) : page.size ≤ pageSize := by
  by_cases hcut : IsLast table page ∧ lastPageSize ≠ 0
  · rw [h.last page hpage hdata hcut.1 hcut.2]
    exact hle
  · exact (h.full page hpage hdata hcut).le

end ImpliedSizes

end Table

/-! ## 5. What becomes of the bytes of a table -/

/-- The entries of a table are those of what it stores: as many, numbered from one, and written with
the same bytes. The sizes of LE pages are implied. -/
structure ReadsAs (order : ByteOrder) (form : PageForm) (pageSize lastPageSize : Int)
    (stored : List Stored) (table : List PageEntry) : Prop where
  length : table.length = stored.length
  numbered : table.map number = List.range' 1 table.length
  formed : ∀ page ∈ table, page.form = form
  bytes : table.flatMap (encode order) = stored.flatMap (Stored.encode order form)
  sizes : form = .le → ImpliedSizes table pageSize lastPageSize

theorem readsAs_ofStored {order : ByteOrder} {form : PageForm} {pageSize lastPageSize : Int}
    {pages : List (Stored × PageKind)} (h : ∀ p ∈ pages, StoredAs form p) :
    ReadsAs order form pageSize lastPageSize (pages.map Prod.fst)
      (ofStored form pageSize lastPageSize pages) where
  length := by rw [length_ofStored, List.length_map]
  numbered := by rw [number_ofStored, length_ofStored]
  formed := fun page hpage => by
    obtain ⟨s, -, hform, -⟩ := mem_ofStored hpage
    exact hform
  bytes := by rw [encode_ofStored order h, List.flatMap_map]
  sizes := by
    rintro rfl
    exact impliedSizes_ofStored pages

/-- With room for it, a table is refused iff some page has a kind that there is none of. -/
theorem readTable_of_room {source : Source} {offset : Int} {count : Nat} {form : PageForm}
    (pageSize lastPageSize : Int) (hnonneg : 0 ≤ offset)
    (hroom : offset + count * form.entrySize ≤ source.size) :
    ∃ stored : List Stored, stored.length = count ∧ (∀ s ∈ stored, s.Fits form) ∧
      source.read offset (count * form.entrySize) =
        .ok (stored.flatMap (Stored.encode source.order form)) ∧
      ((∃ s ∈ stored, 5 < s.code) → ∃ i s, stored[i]? = some s ∧ 5 < s.code ∧
        readTable source offset count form pageSize lastPageSize =
          .error (.format (.pageFlags (i + 1) s.code))) ∧
      ((∀ s ∈ stored, s.code ≤ 5) → ∃ table,
        readTable source offset count form pageSize lastPageSize =
          .ok (table, offset + count * form.entrySize) ∧
        ReadsAs source.order form pageSize lastPageSize stored table) := by
  obtain ⟨stored, rfl, hfits, hheld⟩ := exists_table hnonneg hroom
  refine ⟨stored, rfl, hfits, Source.read_eq_ok_iff.mpr ⟨?_, hheld⟩,
    readTable_of_unknown hfits hheld, fun hknown => ?_⟩
  · rw [length_stored hfits, Int.natCast_mul]
  · obtain ⟨pages, rfl, hstored, hread⟩ := exists_readTable hfits hheld hknown
    exact ⟨_, hread, readsAs_ofStored hstored⟩

end LinearExecutable.PageEntry
