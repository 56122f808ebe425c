import LinearExecutable.Proofs.Image.Decoded
import LinearExecutable.Proofs.Image.RoundTrip

/-!
# Pages and their owners

The pages of the objects, one object behind the other, are all pages of a module. So every page has
exactly one owner, which the module finds together with the address of the page, and the page table
falls into the parts of the objects.
-/

namespace LinearExecutable

open Fixup (Effort)
open ObjectEntry (pageNumbers)

/-! ## 1. Owners -/

theorem ObjectEntry.ownsPage_iff {o : ObjectEntry} {page : Nat} :
    o.ownsPage page = true ↔ page ∈ o.pageNumbers := by
  rw [ownsPage, pageNumbers, endPage, List.mem_range'_1, Bool.and_eq_true, decide_eq_true_eq,
    decide_eq_true_eq]
  omega

section Owners

variable {objects : List ObjectEntry} {pages : Nat}

-- No page has two owners, even if objects are equal.
theorem owner_unique (h : objects.flatMap pageNumbers = List.range' 1 pages) {page i j : Nat}
    {o o' : ObjectEntry} (hi : objects[i]? = some o) (hj : objects[j]? = some o')
    (hpage : page ∈ o.pageNumbers) (hpage' : page ∈ o'.pageNumbers) : j = i := by
  have hnodup : (objects.flatMap pageNumbers).Nodup := h ▸ List.nodup_range'
  have hdisjoint := List.pairwise_iff_getElem.mp (List.nodup_flatMap.mp hnodup).2
  obtain ⟨hlt, rfl⟩ := List.getElem?_eq_some_iff.mp hi
  obtain ⟨hlt', rfl⟩ := List.getElem?_eq_some_iff.mp hj
  rcases Nat.lt_trichotomy i j with hij | hij | hij
  · exact (hdisjoint i j hlt hlt' hij hpage hpage').elim
  · exact hij.symm
  · exact (hdisjoint j i hlt' hlt hij hpage' hpage).elim

/-- The parts of a list over the pages that belong to the objects make up the list. -/
theorem flatMap_ofObject {α : Type} {perPage : List α} {first count : Nat} (hpos : 1 ≤ first)
    (h : objects.flatMap pageNumbers = List.range' first count) :
    objects.flatMap (fun o => ModuleImage.ofObject o perPage) =
      (perPage.drop (first - 1)).take count := by
  -- the next object takes over behind the pages of this one
  induction objects generalizing first count with
  | nil =>
    have hcount := congrArg List.length h
    rw [List.flatMap_nil, List.length_nil, List.length_range'] at hcount
    rw [← hcount, List.flatMap_nil, List.take_zero]
  | cons o objects ih =>
    rw [List.flatMap_cons, pageNumbers] at h
    rw [List.flatMap_cons, ModuleImage.ofObject]
    by_cases hempty : o.pageCount = 0
    · rw [hempty, List.range'_zero, List.nil_append] at h
      rw [if_pos hempty, List.nil_append, ih hpos h]
    · obtain ⟨hfirst, hle, hrest⟩ := (range'_append_eq_iff (by omega)).mp h
      have hnext : first + o.pageCount - 1 = first - 1 + o.pageCount := by omega
      rw [if_neg hempty, ih (by omega) hrest, hfirst, hnext, ← List.drop_drop, ← List.take_add,
        Nat.add_sub_cancel' hle]

end Owners

/-! ## 2. Looking up pages and objects -/

namespace ModuleImage

theorem ofPage_eq_ok_iff {α : Type} {m : ModuleImage} {page : Int} {perPage : List α} {a : α} :
    m.ofPage page perPage = .ok a ↔
      1 ≤ page ∧ page ≤ m.pageTable.length ∧ perPage[(page - 1).toNat]? = some a := by
  unfold ofPage
  split
  · rename_i hpage
    split
    · rename_i found hfound
      rw [Except.ok.injEq, hfound, Option.some.injEq]
      exact ⟨fun h => ⟨hpage.1, hpage.2, h⟩, fun h => h.2.2⟩
    · rename_i hnone
      rw [hnone]
      exact iff_of_false (fun h => by contradiction) fun h => by cases h.2.2
  · rename_i hpage
    refine iff_of_false (fun h => by contradiction) ?_
    rintro ⟨hfirst, hlast, -⟩
    exact hpage ⟨hfirst, hlast⟩

-- A list with an element for each page has one for a page of the module.
theorem exists_ofPage {α : Type} {m : ModuleImage} {perPage : List α}
    (hlen : perPage.length = m.pageTable.length) {page : Nat} (hpos : 1 ≤ page)
    (hle : page ≤ m.pageTable.length) : ∃ a, m.ofPage page perPage = .ok a := by
  have hlt : ((page : Int) - 1).toNat < perPage.length := by omega
  exact ⟨_, ofPage_eq_ok_iff.mpr
    ⟨by exact_mod_cast hpos, by exact_mod_cast hle, List.getElem?_eq_getElem hlt⟩⟩

theorem object_eq_ok {m : ModuleImage} {i : Nat} (hi : i < m.objects.length) :
    m.object (i + 1 : Nat) = .ok m.objects[i] := by
  have hplace : ((i + 1 : Nat) - 1 : Int).toNat = i := by omega
  rw [object, if_pos (by omega), hplace, List.getElem?_eq_getElem hi]

/-- The object that a page belongs to is one of the module, and the page is one of its pages. -/
theorem of_pageOwner {m : ModuleImage} {page : Int} {o : ObjectEntry}
    (h : m.pageOwner page = .ok o) :
    o ∈ m.objects ∧ (o.firstPage : Int) ≤ page ∧ page < o.firstPage + o.pageCount := by
  obtain ⟨_, -, h⟩ := Except.bind_eq_ok_iff.mp h
  split at h
  · rename_i found hfound
    cases h
    have howns := List.find?_some hfound
    rw [ObjectEntry.ownsPage, Bool.and_eq_true, decide_eq_true_eq, decide_eq_true_eq,
      ObjectEntry.endPage] at howns
    push_cast at howns
    exact ⟨List.mem_of_find?_eq_some hfound, howns⟩
  · contradiction

/-- A page of the module belongs to the object that has it among its pages. -/
theorem pageOwner_of_mem {m : ModuleImage} (hm : m.Consistent) {page i : Nat} {o : ObjectEntry}
    (hi : m.objects[i]? = some o) (hpage : page ∈ o.pageNumbers) : m.pageOwner page = .ok o := by
  have ho := List.mem_of_getElem? hi
  have hrange : page ∈ List.range' 1 m.pageTable.length :=
    hm.owned ▸ List.mem_flatMap.mpr ⟨o, ho, hpage⟩
  rw [List.mem_range'_1] at hrange
  obtain ⟨entry, hentry⟩ : ∃ entry, m.ofPage page m.pageTable = .ok entry :=
    exists_ofPage rfl hrange.1 (by omega)
  rw [pageOwner, hentry, Except.bind_ok]
  -- the first object that has the page is the only one
  cases hfound : m.objects.find? fun o => o.ownsPage page with
  | none =>
    have hnone := List.find?_eq_none.mp hfound o ho
    exact absurd (ObjectEntry.ownsPage_iff.mpr hpage) hnone
  | some found =>
    obtain ⟨j, hj⟩ := List.mem_iff_getElem?.mp (List.mem_of_find?_eq_some hfound)
    have howns := List.find?_some hfound
    have hsame := owner_unique hm.owned hi hj hpage (ObjectEntry.ownsPage_iff.mp howns)
    rw [hsame, hi, Option.some.injEq] at hj
    rw [hj]
    rfl

theorem exists_pageOwner {m : ModuleImage} (hm : m.Consistent) {page : Nat} (hpos : 1 ≤ page)
    (hle : page ≤ m.pageTable.length) :
    ∃ (i : Nat) (o : ObjectEntry), m.objects[i]? = some o ∧ page ∈ o.pageNumbers ∧
      m.pageOwner page = .ok o := by
  obtain ⟨o, ho, hfirst, hlast⟩ := exists_owner hm.owned hpos hle
  obtain ⟨i, hi⟩ := List.mem_iff_getElem?.mp ho
  have hpage : page ∈ o.pageNumbers := List.mem_range'_1.mpr ⟨hfirst, hlast⟩
  exact ⟨i, o, hi, hpage, pageOwner_of_mem hm hi hpage⟩

theorem pageAddress_of_owner {m : ModuleImage} {page : Int} {o : ObjectEntry}
    (h : m.pageOwner page = .ok o) :
    m.pageAddress page = .ok (o.base + (page - o.firstPage) * m.header.pageSize) := by
  rw [pageAddress, h]
  rfl

/-- The page table falls into the parts of the objects. -/
theorem mapM_objectPageTable {m : ModuleImage} :
    (List.range' 1 m.objects.length).mapM (fun number : Nat => m.objectPageTable number) =
      .ok (m.objects.map fun o => ofObject o m.pageTable) := by
  rw [Except.mapM_eq_ok_iff, List.forall₂_iff_get]
  refine ⟨by rw [List.length_range', List.length_map], fun i hi hi' => ?_⟩
  rw [List.length_map] at hi'
  have hnumber : (List.range' 1 m.objects.length).get ⟨i, hi⟩ = i + 1 := by
    rw [List.get_eq_getElem, List.getElem_range', Nat.one_mul, Nat.add_comm]
  rw [hnumber, objectPageTable, object_eq_ok hi', List.get_eq_getElem, List.getElem_map]
  rfl

/-! ## 3. Ownership -/

/-- Who owns the pages of a module. Objects and page table are accepted iff the pages of the
objects, one object behind the other, are all pages counted through; else they are refused for their
layout. So each page of a decoded module is among the pages of exactly one object, which is found as
its owner and gives its address; and the parts of the page table that belong to the objects are,
one behind the other, the page table. -/
theorem pages_owned :
    (∀ (objects : List ObjectEntry) (pageTable : List PageEntry),
      (Tables.checkOwnership objects pageTable = .ok () ↔
        objects.flatMap pageNumbers = List.range' 1 pageTable.length) ∧
      (objects.flatMap pageNumbers ≠ List.range' 1 pageTable.length →
        ∃ fault, Tables.checkOwnership objects pageTable = .error (.layout fault))) ∧
    ∀ (file : Source) (offset : Int) (effort : Effort) (path : String)
      (dosHeader? : Option DosHeader) (m : ModuleImage),
      decode file offset effort path dosHeader? = .ok m →
        (∀ p : Nat, 1 ≤ p → p ≤ m.pageTable.length →
          ∃ (i : Nat) (o : ObjectEntry), m.objects[i]? = some o ∧ p ∈ o.pageNumbers ∧
            (∀ (j : Nat) (o' : ObjectEntry), m.objects[j]? = some o' → p ∈ o'.pageNumbers →
              j = i) ∧
            m.pageOwner p = .ok o ∧
            m.pageAddress p = .ok (o.base + (p - o.firstPage) * m.header.pageSize)) ∧
        ∃ parts, (List.range' 1 m.objects.length).mapM
            (fun number : Nat => m.objectPageTable number) = .ok parts ∧
          parts.flatten = m.pageTable := by
  refine ⟨fun objects pageTable => ⟨checkOwnership_eq_ok_iff, fun hgap => ?_⟩,
    fun file offset effort path dosHeader? m h => ⟨fun p hpos hle => ?_, ?_⟩⟩
  · cases hcheck : Tables.ownershipFault? pageTable.length 1 objects with
    | some fault => exact ⟨fault, by rw [Tables.checkOwnership, hcheck]⟩
    | none =>
      refine absurd (checkOwnership_eq_ok_iff.mp ?_) hgap
      rw [Tables.checkOwnership, hcheck]
  · have hm := consistent_of_decode h
    obtain ⟨o, ho, hfirst, hlast⟩ := exists_owner hm.owned hpos hle
    obtain ⟨i, hi⟩ := List.mem_iff_getElem?.mp ho
    have hpage : p ∈ o.pageNumbers := List.mem_range'_1.mpr ⟨hfirst, hlast⟩
    have howner := pageOwner_of_mem hm hi hpage
    exact ⟨i, o, hi, hpage, fun j o' hj hpage' => owner_unique hm.owned hi hj hpage hpage', howner,
      pageAddress_of_owner howner⟩
  · have hm := consistent_of_decode h
    refine ⟨_, mapM_objectPageTable, ?_⟩
    rw [← List.flatMap_def, flatMap_ofObject (le_refl 1) hm.owned, Nat.sub_self, List.drop_zero,
      List.take_length]

/-- The last page of the sample belongs to its second object, at the start of it; the objects the
other way round do not own the pages. -/
theorem pages_owned_sample :
    sampleImage.pageOwner 3 = .ok ⟨2, 16, 0x20000, 3, 3, 1, 0⟩ ∧
      sampleImage.pageAddress 3 = .ok 0x20000 ∧
      (∃ parts, (List.range' 1 2).mapM (fun number : Nat => sampleImage.objectPageTable number) =
        .ok parts ∧ parts.flatten = sampleImage.pageTable) ∧
      ∃ fault, Tables.checkOwnership sampleImage.objects.reverse sampleImage.pageTable =
        .error (.layout fault) := by
  obtain ⟨hcheck, hdecoded⟩ := pages_owned
  obtain ⟨hpages, hparts⟩ := hdecoded _ _ _ _ _ _ decode_sampleImage
  obtain ⟨i, o, hi, -, hunique, howner, haddress⟩ := hpages 3 (by decide) (by decide)
  have hsecond : sampleImage.objects[1]? = some ⟨2, 16, 0x20000, 3, 3, 1, 0⟩ := rfl
  obtain rfl := hunique 1 _ hsecond (by decide)
  rw [hsecond, Option.some.injEq] at hi
  subst hi
  exact ⟨howner, haddress, hparts, (hcheck _ _).2 (by decide)⟩

end ModuleImage

end LinearExecutable
