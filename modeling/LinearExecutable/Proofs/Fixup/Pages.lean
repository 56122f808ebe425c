import LinearExecutable.Proofs.Fixup.Fields

/-!
# The fixups of all pages

The offsets of the fixup page table cut the record table into one range for each page. Pages are
decoded one by one: the number of workers does not matter, and a page whose range does not end
before it starts is refused because its bytes are not there or because of one of its records.
-/

namespace LinearExecutable.Fixup

/-! ## 1. Ranges -/

theorem length_pageRanges (table : Int) (offsets : List Int) :
    (pageRanges table offsets).length = offsets.length - 1 := by
  rw [pageRanges, List.length_map, List.length_zipIdx, List.length_zip, List.length_tail]
  omega

-- Ranges carry the numbers of their pages.
theorem page_of_getElem?_pageRanges {table : Int} {offsets : List Int} {i : Nat}
    {range : PageRange} (h : (pageRanges table offsets)[i]? = some range) :
    range.page = i + 1 := by
  rw [pageRanges, List.getElem?_map, List.getElem?_zipIdx, Option.map_map,
    Option.map_eq_some_iff] at h
  obtain ⟨_, -, rfl⟩ := h
  exact Nat.add_comm 1 i

/-- The range of a page runs from its own offset to that of the next page. -/
theorem getElem?_pageRanges {table : Int} {offsets : List Nat} {i : Nat} {range : PageRange} :
    (pageRanges table (offsets.map Int.ofNat))[i]? = some range ↔
      ∃ start stop, offsets[i]? = some start ∧ offsets[i + 1]? = some stop ∧
        range = ⟨i + 1, table + start, stop - start⟩ := by
  rw [pageRanges, List.getElem?_map, List.getElem?_zipIdx, Option.map_map, Option.map_eq_some_iff]
  simp only [List.getElem?_zip_eq_some, List.getElem?_tail, List.getElem?_map,
    Option.map_eq_some_iff]
  constructor
  · rintro ⟨⟨_, _⟩, ⟨⟨start, hstart, rfl⟩, stop, hstop, rfl⟩, rfl⟩
    exact ⟨start, stop, hstart, hstop, by simp [Nat.add_comm]⟩
  · rintro ⟨start, stop, hstart, hstop, rfl⟩
    exact ⟨(start, stop), ⟨⟨start, hstart, rfl⟩, stop, hstop, rfl⟩, by simp [Nat.add_comm]⟩

-- Offsets that never decrease give ranges that do not end before they start.
theorem length_nonneg_of_mem_pageRanges {table : Int} {offsets : List Nat} {range : PageRange}
    (hsorted : offsets.Pairwise (· ≤ ·))
    (hrange : range ∈ pageRanges table (offsets.map Int.ofNat)) : 0 ≤ range.length := by
  obtain ⟨i, hi⟩ := List.mem_iff_getElem?.mp hrange
  obtain ⟨start, stop, hstart, hstop, rfl⟩ := getElem?_pageRanges.mp hi
  obtain ⟨hlt, rfl⟩ := List.getElem?_eq_some_iff.mp hstart
  obtain ⟨hlt', rfl⟩ := List.getElem?_eq_some_iff.mp hstop
  have hle := List.pairwise_iff_getElem.mp hsorted i (i + 1) hlt hlt' (Nat.lt_succ_self i)
  show (0 : Int) ≤ offsets[i + 1] - offsets[i]
  omega

/-! ## 2. Pages -/

/-- The bytes of records one behind the other. -/
def recordBytes (order : ByteOrder) (records : List Record) : List UInt8 :=
  records.flatMap (Record.encode order)

/-- What a page comes to whose bytes are all there: its records are well formed and stand one behind
the other from its start on, up to its end or up to a record that is refused. -/
theorem decodeRange_spec {source : Source} {offset length : Int} (page : Int)
    (hroom : source.require offset length = .ok ()) :
    (∀ r ∈ (decodeRange source offset length page).records,
      r.WellFormed ∧ r.size = (r.encode source.order).length) ∧
    source.Holds offset (recordBytes source.order (decodeRange source offset length page).records) ∧
    match (decodeRange source offset length page).failure? with
      | none => (recordBytes source.order
          (decodeRange source offset length page).records).length = length
      | some e =>
        (recordBytes source.order
          (decodeRange source offset length page).records).length < length ∧
        RefusedAt page (offset + (recordBytes source.order
          (decodeRange source offset length page).records).length) e := by
  rw [decodeRange_eq page hroom]
  obtain ⟨hwell, hahead, hend⟩ := recordsFrom_spec page _ (inside_of_require hroom)
  refine ⟨hwell, hahead.1, ?_⟩
  simp only [Cursor.remaining, add_sub_cancel_left] at hend
  split <;> rename_i hfailure <;> rw [hfailure] at hend
  · exact hend.symm
  · obtain ⟨hleft, next, hrecord⟩ := hend
    obtain ⟨hnonneg, -, hle⟩ := Source.require_eq_ok_iff.mp hroom
    exact ⟨hleft, refusedAt_of_decodeRecord hrecord (Int.add_nonneg hnonneg (Int.natCast_nonneg _))
      hle⟩

/-- A page is kept whole, or up to a record that cannot be decoded. -/
theorem keep_eq_ok_iff {d : Decoded} {page : Int} {bestEffort : Bool} {kept : PageFixups} :
    d.keep page bestEffort = .ok kept ↔
      (d.failure? = none ∧ kept = ⟨d.records, none⟩) ∨
      ∃ fixup, bestEffort = true ∧ d.failure? = some (.unsupportedFixup fixup) ∧
        kept = ⟨d.records, some ⟨page, fixup⟩⟩ := by
  unfold Decoded.keep
  split
  · rename_i hfailure
    simp [hfailure, eq_comm]
  · rename_i fixup hfailure
    cases bestEffort <;> simp [hfailure, eq_comm]
  · rename_i e hother hfailure
    simp only [hfailure, Option.some.injEq, reduceCtorEq, false_and, false_or, false_iff]
    rintro ⟨fixup, -, hfixup, -⟩
    exact hother fixup hfixup

/-- The pages are decoded one by one, whatever the number of workers. -/
theorem mapM_pageOutcomes (source : Source) (table : Int) (offsets : List Int) (effort : Effort) :
    (pageOutcomes source table offsets effort).mapM id =
      (pageRanges table offsets).mapM (decodePage source effort.bestEffort) := by
  rw [pageOutcomes, Pool.map_eq, List.mapM_map]
  rfl

/-- What stops the decoding of a page that does not end before it starts. -/
theorem failure_of_decodeRange {source : Source} {offset length page : Int} {e : Error}
    (hlength : 0 ≤ length) (h : (decodeRange source offset length page).failure? = some e) :
    e.IsTruncated ∨ ∃ fixup, e = .unsupportedFixup fixup := by
  cases hroom : source.require offset length with
  | error e' =>
    rw [decodeRange, if_neg (by omega), hroom] at h
    cases h
    exact .inl (source.failsOnly_require offset length e hroom)
  | ok _ =>
    have hend := (decodeRange_spec page hroom).2.2
    rw [h] at hend
    obtain ⟨fixup, rfl, -⟩ := hend.2
    exact .inr ⟨fixup, rfl⟩

/-- The number of bytes that records take up together. -/
def totalSize (records : List Record) : Int := (records.map Record.size).sum

-- Records that know the size of their encoding take up the bytes of their encodings.
theorem totalSize_eq {order : ByteOrder} {records : List Record}
    (h : ∀ r ∈ records, r.size = (r.encode order).length) :
    totalSize records = (recordBytes order records).length := by
  induction records with
  | nil => rfl
  | cons r records ih =>
    rw [List.forall_mem_cons] at h
    have hrest := ih h.2
    rw [totalSize, List.map_cons, List.sum_cons, recordBytes, List.flatMap_cons, List.length_append]
    rw [totalSize, recordBytes] at hrest
    rw [h.1, hrest, Nat.cast_add]

/-- How the fixups of a page lie in its range: the encodings of the records stand one behind the
other from its start on and fill it. With a diagnostic they end in front of a record that cannot be
decoded, and the diagnostic gives the page and that place. -/
structure Tiles (source : Source) (range : PageRange) (kept : PageFixups) : Prop where
  records : ∀ r ∈ kept.records, r.WellFormed ∧ r.size = (r.encode source.order).length
  held : source.Holds range.offset (recordBytes source.order kept.records)
  whole : kept.diagnostic? = none → totalSize kept.records = range.length
  part : ∀ d, kept.diagnostic? = some d → totalSize kept.records < range.length ∧
    d.page = range.page ∧ d.error.page? = some (range.page : Int) ∧
    d.error.offset? = some (range.offset + totalSize kept.records)

theorem Tiles.size {source : Source} {range : PageRange} {kept : PageFixups}
    (h : Tiles source range kept) :
    totalSize kept.records = (recordBytes source.order kept.records).length :=
  totalSize_eq fun r hr => (h.records r hr).2

-- A page of which something is kept has its bytes in the source.
theorem require_of_decodePage {source : Source} {bestEffort : Bool} {range : PageRange}
    {kept : PageFixups} (h : decodePage source bestEffort range = .ok kept) :
    source.require range.offset range.length = .ok () := by
  rw [decodePage, decodeRange] at h
  split at h
  · contradiction
  · cases hroom : source.require range.offset range.length with
    | ok _ => rfl
    | error e =>
      obtain ⟨cause, rfl⟩ := source.failsOnly_require _ _ e hroom
      rw [hroom] at h
      contradiction

/-- What is kept of a page tiles its range. -/
theorem tiles_of_decodePage {source : Source} {bestEffort : Bool} {range : PageRange}
    {kept : PageFixups} (h : decodePage source bestEffort range = .ok kept) :
    Tiles source range kept := by
  obtain ⟨hrecords, hheld, hend⟩ := decodeRange_spec range.page (require_of_decodePage h)
  have hsize := totalSize_eq fun r hr => (hrecords r hr).2
  rcases keep_eq_ok_iff.mp h with ⟨hfailure, rfl⟩ | ⟨fixup, -, hfailure, rfl⟩
  · rw [hfailure] at hend
    refine ⟨hrecords, hheld, fun _ => hsize.trans hend, fun d hd => ?_⟩
    contradiction
  · rw [hfailure] at hend
    obtain ⟨hlt, _, heq, hpage, hoffset⟩ := hend
    cases heq
    refine ⟨hrecords, hheld, fun hnone => ?_, fun d hd => ?_⟩
    · contradiction
    · cases hd
      refine ⟨hsize ▸ hlt, rfl, hpage, ?_⟩
      rw [hsize]
      exact hoffset

/-! ## 3. Diagnostics -/

/-- The diagnostic of a page carries the number of the page. -/
def Numbered (pages : List PageFixups) : Prop :=
  ∀ (i : Nat) (kept : PageFixups) (d : Diagnostic), pages[i]? = some kept →
    kept.diagnostic? = some d → d.page = i + 1

theorem mem_diagnosticsOf {pages : List PageFixups} {d : Diagnostic} :
    d ∈ diagnosticsOf pages ↔
      ∃ (i : Nat) (kept : PageFixups), pages[i]? = some kept ∧ kept.diagnostic? = some d := by
  rw [diagnosticsOf, List.mem_filterMap]
  constructor
  · rintro ⟨kept, hkept, hd⟩
    obtain ⟨i, hi⟩ := List.mem_iff_getElem?.mp hkept
    exact ⟨i, kept, hi, hd⟩
  · rintro ⟨i, kept, hi, hd⟩
    exact ⟨kept, List.mem_of_getElem? hi, hd⟩

/-- The diagnostics with the number of a page are the one of the page. -/
theorem Numbered.mem_diagnosticsOf_page {pages : List PageFixups} (h : Numbered pages) {i : Nat}
    {kept : PageFixups} (hi : pages[i]? = some kept) {d : Diagnostic} :
    d ∈ diagnosticsOf pages ∧ d.page = i + 1 ↔ kept.diagnostic? = some d := by
  constructor
  · rintro ⟨hmem, hpage⟩
    obtain ⟨j, kept', hj, hd⟩ := mem_diagnosticsOf.mp hmem
    have hsame : i = j := by
      have := h j kept' d hj hd
      omega
    subst hsame
    rw [hi, Option.some.injEq] at hj
    exact hj ▸ hd
  · intro hd
    exact ⟨mem_diagnosticsOf.mpr ⟨i, kept, hi, hd⟩, h i kept d hi hd⟩

/-- The diagnostics of numbered pages are in the order of the pages, at most one for each. -/
theorem Numbered.pairwise_diagnosticsOf {pages : List PageFixups} (h : Numbered pages) :
    (diagnosticsOf pages).Pairwise fun d d' => d.page < d'.page := by
  rw [diagnosticsOf, List.pairwise_filterMap, List.pairwise_iff_getElem]
  intro i j hi hj hlt d hd d' hd'
  have hpage := h i _ d (List.getElem?_eq_getElem hi) hd
  have hpage' := h j _ d' (List.getElem?_eq_getElem hj) hd'
  omega

/-- Pages decoded from their ranges are numbered. -/
theorem numbered_of_mapM {source : Source} {table : Int} {offsets : List Int} {bestEffort : Bool}
    {pages : List PageFixups}
    (h : (pageRanges table offsets).mapM (decodePage source bestEffort) = .ok pages) :
    Numbered pages := by
  intro i kept d hi hd
  obtain ⟨range, hrange, hkept⟩ := Except.getElem?_of_mapM_right h hi
  have hpage := page_of_getElem?_pageRanges hrange
  rcases keep_eq_ok_iff.mp hkept with ⟨-, rfl⟩ | ⟨fixup, -, -, rfl⟩
  · contradiction
  · cases hd
    show (range.page : Int) = i + 1
    rw [hpage]
    rfl

end LinearExecutable.Fixup
