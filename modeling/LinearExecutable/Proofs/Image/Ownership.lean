import LinearExecutable.Image.Assembly
import LinearExecutable.Proofs.Bytes.Window

/-!
# Ownership of the pages

The check of the objects against the page table succeeds iff the pages of the objects, in the order
of their table, are all pages of the module counted through.
-/

namespace LinearExecutable

open ObjectEntry (pageNumbers)

-- A run of numbers in front of a longer one: it starts there and is not longer.
theorem range'_append_eq_iff {first expected count total : Nat} {rest : List Nat}
    (hpos : 0 < count) :
    List.range' first count ++ rest = List.range' expected total ↔
      first = expected ∧ count ≤ total ∧
        rest = List.range' (expected + count) (total - count) := by
  constructor
  · intro h
    have hle : count ≤ total := by
      have hlen := congrArg List.length h
      rw [List.length_append, List.length_range', List.length_range'] at hlen
      omega
    rw [show total = count + (total - count) by omega, ← List.range'_append_1] at h
    obtain ⟨hhead, hrest⟩ := List.append_inj h (by rw [List.length_range', List.length_range'])
    rw [show count = count - 1 + 1 by omega, List.range'_succ, List.range'_succ,
      List.cons.injEq] at hhead
    exact ⟨hhead.1, hle, hrest⟩
  · rintro ⟨rfl, hle, rfl⟩
    rw [List.range'_append_1]
    congr 1
    omega

-- Objects that take over at page `expected` own exactly the pages from there on.
theorem ownershipFault?_eq_none_iff {pages expected : Nat} {objects : List ObjectEntry}
    (hpos : 1 ≤ expected) :
    Tables.ownershipFault? pages expected objects = none ↔
      expected ≤ pages + 1 ∧
        objects.flatMap pageNumbers = List.range' expected (pages + 1 - expected) := by
  -- the next object takes over behind the pages of this one
  induction objects generalizing expected with
  | nil =>
    rw [Tables.ownershipFault?, List.flatMap_nil]
    by_cases hall : expected - 1 = pages
    · rw [if_pos hall, show pages + 1 - expected = 0 by omega]
      simpa using (by omega : expected ≤ pages + 1)
    · rw [if_neg hall]
      refine iff_of_false (fun h => by contradiction) fun ⟨hle, hrange⟩ => ?_
      have hlen := congrArg List.length hrange
      rw [List.length_nil, List.length_range'] at hlen
      omega
  | cons o objects ih =>
    rw [Tables.ownershipFault?, List.flatMap_cons, pageNumbers]
    by_cases hempty : o.pageCount = 0
    · rw [if_pos hempty, hempty, List.range'_zero, List.nil_append, ih hpos]
    · rw [if_neg hempty, range'_append_eq_iff (by omega)]
      dsimp only
      by_cases hfirst : o.firstPage = expected
      · by_cases hroom : o.firstPage < 1 ∨ pages < o.firstPage + o.pageCount - 1
        · rw [if_pos hroom]
          exact iff_of_false (fun h => by contradiction) fun ⟨_, _, _, _⟩ => by omega
        · rw [if_neg hroom, if_neg (not_not.mpr hfirst), ih (by omega),
            show pages + 1 - (expected + o.pageCount) = pages + 1 - expected - o.pageCount by omega]
          constructor
          · rintro ⟨hle, hrest⟩
            exact ⟨by omega, hfirst, by omega, hrest⟩
          · rintro ⟨hle, -, hcount, hrest⟩
            exact ⟨by omega, hrest⟩
      · refine iff_of_false ?_ fun ⟨_, hsame, _⟩ => hfirst hsame
        by_cases hroom : o.firstPage < 1 ∨ pages < o.firstPage + o.pageCount - 1
        · rw [if_pos hroom]
          exact Option.some_ne_none _
        · rw [if_neg hroom, if_pos hfirst]
          exact Option.some_ne_none _

/-- The objects own every page of the module, each once and in order. -/
theorem checkOwnership_eq_ok_iff {objects : List ObjectEntry} {pageTable : List PageEntry} :
    Tables.checkOwnership objects pageTable = .ok () ↔
      objects.flatMap pageNumbers = List.range' 1 pageTable.length := by
  have hfault := @ownershipFault?_eq_none_iff pageTable.length 1 objects (Nat.le_refl 1)
  rw [Nat.add_sub_cancel, and_iff_right (by omega)] at hfault
  rw [← hfault, Tables.checkOwnership]
  split <;> simp_all

/-- Every page of an object that has its pages is a page of the module. -/
theorem mem_pages_of_mem_object {objects : List ObjectEntry} {pages : Nat}
    (h : objects.flatMap pageNumbers = List.range' 1 pages) {o : ObjectEntry} (ho : o ∈ objects)
    {i : Nat} (hi : i < o.pageCount) : 1 ≤ o.firstPage + i ∧ o.firstPage + i ≤ pages := by
  have hmem : o.firstPage + i ∈ objects.flatMap pageNumbers :=
    List.mem_flatMap.mpr ⟨o, ho, List.mem_range'_1.mpr ⟨by omega, by omega⟩⟩
  rw [h, List.mem_range'_1] at hmem
  omega

/-- Every page of the module belongs to an object. -/
theorem exists_owner {objects : List ObjectEntry} {pages page : Nat}
    (h : objects.flatMap pageNumbers = List.range' 1 pages) (hpos : 1 ≤ page) (hle : page ≤ pages) :
    ∃ o ∈ objects, o.firstPage ≤ page ∧ page < o.firstPage + o.pageCount := by
  have hmem : page ∈ objects.flatMap pageNumbers := by
    rw [h, List.mem_range'_1]
    omega
  obtain ⟨o, ho, hpage⟩ := List.mem_flatMap.mp hmem
  exact ⟨o, ho, List.mem_range'_1.mp hpage⟩

end LinearExecutable
