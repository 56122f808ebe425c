import LinearExecutable.Proofs.Image.MemoryMap
import LinearExecutable.Proofs.Image.Pages

/-!
# Page kinds, memory and regions of an object

An object is described three times: by the kinds of its pages, by its initialised bytes, and by the
region that shows it. The three agree: a page of a kind without data is zero in memory, whether the
page table has it or not, and a region covers exactly the memory of its object.
-/

namespace LinearExecutable

open Fixup (Effort)

/-! ## 1. Kinds of pages -/

namespace ModuleImage

variable {m : ModuleImage} {o : ObjectEntry}

-- An object is found under its number.
theorem object_of_mem (hm : m.Consistent) (ho : o ∈ m.objects) : m.object o.number = .ok o := by
  obtain ⟨i, hi, rfl⟩ := List.mem_iff_getElem.mp ho
  have hnumber : (m.objects.map ObjectEntry.number)[i]? = some m.objects[i].number := by
    rw [List.getElem?_map, List.getElem?_eq_getElem hi]
    rfl
  rw [hm.numbered, List.getElem?_range' hi, Option.some.injEq] at hnumber
  rw [← hnumber, Nat.one_mul, Nat.add_comm]
  exact object_eq_ok hi

theorem length_ofObject (hm : m.Consistent) (ho : o ∈ m.objects) {α : Type} {perPage : List α}
    (hlen : perPage.length = m.pageTable.length) : (ofObject o perPage).length = o.pageCount := by
  rw [ofObject]
  split
  · rename_i hempty
    exact hempty.symm
  · rename_i hpages
    have hfirst := (mem_pages_of_mem_object hm.owned ho (by omega : 0 < o.pageCount)).1
    have hlast := (mem_pages_of_mem_object hm.owned ho (by omega : o.pageCount - 1 < _)).2
    rw [List.length_take, List.length_drop]
    omega

theorem pagesFor_eq (size : Nat) {pageSize : Nat} (hpos : 0 < pageSize) :
    pagesFor size pageSize = size ⌈/⌉ pageSize := by
  rw [pagesFor, Nat.ceilDiv_eq_add_pred_div, Nat.add_sub_assoc hpos]

/-- The kind of the pages behind the entries of an object: invalid if the last entry is. -/
def kindBehind (entries : List PageEntry) : PageKind :=
  if entries.getLast?.any fun page => page.kind = .invalid then .invalid else .zeroFilled

theorem fillKind_eq (entries : List PageEntry) :
    fillKind (entries.map PageEntry.kind) = kindBehind entries := by
  rw [fillKind, List.getLast?_map, kindBehind]
  cases entries.getLast? with
  | none => rfl
  | some page => cases h : page.kind <;> simp [h]

/-- The kinds of the pages of an object: those of its entries, and one kind for all pages that its
memory needs behind them. -/
theorem objectPageKinds_eq (hm : m.Consistent) (ho : o ∈ m.objects) :
    m.objectPageKinds o.number = .ok ((ofObject o m.pageTable).map PageEntry.kind ++
      List.replicate (o.virtualSize ⌈/⌉ m.header.pageSize - o.pageCount)
        (kindBehind (ofObject o m.pageTable))) := by
  rw [objectPageKinds, object_of_mem hm ho, Except.bind_ok]
  dsimp only
  rw [List.length_map, length_ofObject hm ho rfl, fillKind_eq,
    pagesFor_eq _ hm.pageSize_pos]
  rfl

/-! ## 2. Initialised bytes -/

theorem length_buildObject (hm : m.Consistent) (ho : o ∈ m.objects) {bytes : List UInt8}
    (h : m.buildObject o = .ok bytes) :
    bytes.length = min (o.pageCount * m.header.pageSize) o.virtualSize := by
  rw [buildObject_eq, Except.bind_eq_ok_iff] at h
  obtain ⟨loaded, hloaded, h⟩ := h
  cases h
  have hzip : (m.pageTable.zip m.pages).length = m.pageTable.length := by
    rw [List.length_zip, hm.stored, Nat.min_self]
  rw [length_layPages, ← (Except.mapM_eq_ok_iff.mp hloaded).length_eq, length_ofObject hm ho hzip]

theorem pageByte_eq_zero {page : PageEntry} (hlegal : page.kind ≠ .legal)
    (hiterated : page.kind ≠ .iterated) (stored : List UInt8) (j : Nat) :
    m.pageByte page stored j = 0 := by
  rw [pageByte]
  cases hkind : page.kind with
  | legal => exact absurd hkind hlegal
  | iterated => exact absurd hkind hiterated
  | invalid | zeroFilled | range | compressed => rfl

/-- Memory is zero on a page of a kind from which nothing is loaded. -/
theorem memoryByte_eq_zero (hm : m.Consistent) (ho : o ∈ m.objects) {kinds : List PageKind}
    (hkinds : m.objectPageKinds o.number = .ok kinds) {x : Nat} {kind : PageKind}
    (hkind : kinds[x / m.header.pageSize]? = some kind) (hlegal : kind ≠ .legal)
    (hiterated : kind ≠ .iterated) : m.memoryByte o x = 0 := by
  rw [objectPageKinds_eq hm ho, Except.ok.injEq] at hkinds
  subst hkinds
  rw [memoryByte]
  generalize x / m.header.pageSize = i at hkind ⊢
  by_cases hbehind : o.pageCount ≤ i
  · exact if_pos hbehind
  · -- the page has an entry, which is the one that the kind is taken from
    have hinside : i < o.pageCount := by omega
    have hfirst := (mem_pages_of_mem_object hm.owned ho (by omega : 0 < o.pageCount)).1
    have hentries : ((ofObject o m.pageTable).map PageEntry.kind).length = o.pageCount := by
      rw [List.length_map, length_ofObject hm ho rfl]
    rw [List.getElem?_append_left (by omega), List.getElem?_map, Option.map_eq_some_iff] at hkind
    obtain ⟨page, hpage, rfl⟩ := hkind
    rw [getElem?_ofObject, if_pos hinside,
      show o.firstPage - 1 + i = o.firstPage + i - 1 by omega] at hpage
    rw [if_neg hbehind, hpage]
    cases m.pages[o.firstPage + i - 1]? with
    | none => rfl
    | some stored => exact pageByte_eq_zero hlegal hiterated stored _

/-! ## 3. Regions -/

end ModuleImage

/-- No object is in two of the classes that have regions. -/
theorem ObjectEntry.classes_disjoint (o : ObjectEntry) :
    ¬(o.isCode ∧ o.isData) ∧ ¬(o.isCode ∧ o.isConst) ∧ ¬(o.isData ∧ o.isConst) := by
  unfold isCode isData isConst
  cases o.isExecutable <;> cases o.isWritable <;> simp

/-- A region shows an object: it covers the memory of the object and starts with its initialised
bytes. -/
structure Region.Shows (r : Region) (o : ObjectEntry) (bytes : List UInt8) : Prop where
  address : r.address = o.base
  endAddress : r.endAddress = o.endAddress
  bytes : r.bytes = bytes

theorem Region.shows_ofBytes {o : ObjectEntry} {bytes : List UInt8}
    (h : bytes.length ≤ o.virtualSize) : (ofBytes o.base bytes o.virtualSize).Shows o bytes where
  address := rfl
  endAddress := by
    have hsize : (ofBytes o.base bytes o.virtualSize).size = o.virtualSize := Nat.max_eq_right h
    rw [endAddress, hsize]
    rfl
  bytes := rfl

namespace ModuleImage

variable {m : ModuleImage} {o : ObjectEntry}

-- Objects and their bytes stand in one order.
theorem forall₂_objectData (hm : m.Consistent) {data : List (List UInt8)}
    (hdata : m.objectData = .ok data) :
    List.Forall₂ (fun o bytes => data[o.number - 1]? = some bytes ∧ bytes.length ≤ o.virtualSize)
      m.objects data := by
  have hall := Except.mapM_eq_ok_iff.mp hdata
  refine List.forall₂_iff_get.mpr ⟨hall.length_eq, fun i hi hi' => ?_⟩
  obtain ⟨bytes, hbytes, hbuild⟩ := getElem?_objectData hm hdata (List.get_mem m.objects ⟨i, hi⟩)
  have hsame : bytes = data.get ⟨i, hi'⟩ := Except.ok.inj (hbuild.symm.trans (hall.get hi hi'))
  rw [← hsame]
  exact ⟨hbytes, length_buildObject_le hbuild⟩

theorem forall₂_regions {Built : ObjectEntry → List UInt8 → Prop} {objects : List ObjectEntry}
    {data : List (List UInt8)} (wanted : ObjectEntry → Bool)
    (hall : List.Forall₂ (fun o bytes => Built o bytes ∧ bytes.length ≤ o.virtualSize)
      objects data) :
    List.Forall₂ (fun o r => ∃ bytes, Built o bytes ∧ r.Shows o bytes) (objects.filter wanted)
      (((objects.zip data).filter fun (o, _) => wanted o).map fun (o, bytes) =>
        Region.ofBytes o.base bytes o.virtualSize) := by
  induction hall with
  | nil => exact .nil
  | @cons o bytes objects data hbytes _ ih =>
    rw [List.zip_cons_cons, List.filter_cons, List.filter_cons]
    dsimp only
    split
    · exact .cons ⟨bytes, hbytes.1, Region.shows_ofBytes hbytes.2⟩ ih
    · exact ih

/-- The regions of a class show its objects, each once and in their order. -/
theorem regions_eq_ok (hm : m.Consistent) {data : List (List UInt8)}
    (hdata : m.objectData = .ok data) (wanted : ObjectEntry → Bool) :
    ∃ regions, m.regions wanted = .ok regions ∧
      List.Forall₂ (fun o r => ∃ bytes, data[o.number - 1]? = some bytes ∧ r.Shows o bytes)
        (m.objects.filter wanted) regions := by
  refine ⟨_, ?_, forall₂_regions wanted (forall₂_objectData hm hdata)⟩
  rw [regions, hdata]
  rfl

-- Memory is looked up in the object that contains the address.
theorem seek_of_relativeAddress {data : List (List UInt8)}
    (hdata : m.objectData = .ok data) {address offset : Int}
    (h : m.relativeAddress address = .ok (o, offset)) {bytes : List UInt8}
    (hbytes : data[o.number - 1]? = some bytes) :
    m.seek address =
      .ok ⟨bytes.drop (address - o.base).toNat, o.virtualSize - (address - o.base)⟩ := by
  have hoffset : offset = address - o.base := by
    rw [relativeAddress] at h
    split at h
    · cases h
      rfl
    · contradiction
  rw [seek, h, Except.bind_ok]
  dsimp only
  rw [hdata, Except.bind_ok, hbytes, hoffset]
  rfl

-- What a region shows of the memory of its object from an address on.
theorem seek_of_shows {data : List (List UInt8)}
    (hdata : m.objectData = .ok data) {address offset : Int}
    (h : m.relativeAddress address = .ok (o, offset)) {bytes : List UInt8}
    (hbytes : data[o.number - 1]? = some bytes) {r : Region} (hr : r.Shows o bytes) :
    m.seek address =
      .ok ⟨r.bytes.drop (address - r.address).toNat, r.address + r.size - address⟩ := by
  have hend := hr.endAddress
  rw [Region.endAddress, ObjectEntry.endAddress, hr.address] at hend
  push_cast at hend
  rw [seek_of_relativeAddress hdata h hbytes, hr.bytes, hr.address]
  congr 2
  omega

/-! ## 4. Agreement -/

/-- The views of the objects of a module whose objects can be built. The kinds of the pages of an
object are those of its entries and, if its memory needs more pages, one kind behind them; memory is
zero on every page that is neither stored nor iterated. As much is initialised as the entries and
the memory have room for. Each class of objects has a region for each of its objects, in their
order, and no object is in two classes; the region covers the memory of the object, and looking up
an address of the object shows the region from there on. -/
theorem views_agree {file : Source} {offset : Int} {effort : Effort} {path : String}
    {dosHeader? : Option DosHeader} {m : ModuleImage}
    (hm : decode file offset effort path dosHeader? = .ok m) {data : List (List UInt8)}
    (hdata : m.objectData = .ok data) :
    (∀ o ∈ m.objects, ∃ entries kinds bytes,
      m.objectPageTable o.number = .ok entries ∧ m.objectPageKinds o.number = .ok kinds ∧
      data[o.number - 1]? = some bytes ∧ entries.length = o.pageCount ∧
      kinds.length = max o.pageCount (o.virtualSize ⌈/⌉ m.header.pageSize) ∧
      (∃ further, kinds = entries.map PageEntry.kind ++ further ∧
        ∀ kind ∈ further, kind = kindBehind entries) ∧
      (∀ i kind x, kinds[i]? = some kind → kind ≠ .legal → kind ≠ .iterated →
        i * m.header.pageSize ≤ x → x < (i + 1) * m.header.pageSize → x < o.virtualSize →
          (View.zeroFilled o.virtualSize bytes)[x]? = some 0) ∧
      bytes.length = min (o.pageCount * m.header.pageSize) o.virtualSize) ∧
    (∀ o : ObjectEntry, ¬(o.isCode ∧ o.isData) ∧ ¬(o.isCode ∧ o.isConst) ∧
      ¬(o.isData ∧ o.isConst)) ∧
    (∀ wanted ∈ [ObjectEntry.isCode, ObjectEntry.isData, ObjectEntry.isConst],
      ∃ regions, m.regions wanted = .ok regions ∧
        List.Forall₂ (fun o r => ∃ bytes, data[o.number - 1]? = some bytes ∧ r.Shows o bytes)
          (m.objects.filter wanted) regions) ∧
    ∀ o address offset bytes (r : Region), m.relativeAddress address = .ok (o, offset) →
      data[o.number - 1]? = some bytes → r.Shows o bytes →
        m.seek address =
          .ok ⟨r.bytes.drop (address - r.address).toNat, r.address + r.size - address⟩ := by
  have hconsistent := consistent_of_decode hm
  refine ⟨fun o ho => ?_, ObjectEntry.classes_disjoint, fun wanted _ => ?_,
    fun o address offset bytes r hfound hbytes hr => seek_of_shows hdata hfound hbytes hr⟩
  · obtain ⟨bytes, hbytes, hbuild⟩ := getElem?_objectData hconsistent hdata ho
    have hkinds := objectPageKinds_eq hconsistent ho
    have htable : m.objectPageTable o.number = .ok (ofObject o m.pageTable) := by
      rw [objectPageTable, object_of_mem hconsistent ho]
      rfl
    refine ⟨_, _, bytes, htable, hkinds, hbytes, length_ofObject hconsistent ho rfl, ?_,
      ⟨_, rfl, fun kind hkind => List.eq_of_mem_replicate hkind⟩,
      fun i kind x hkind hlegal hiterated hstart hend hx => ?_,
      length_buildObject hconsistent ho hbuild⟩
    · rw [List.length_append, List.length_map, length_ofObject hconsistent ho rfl,
        List.length_replicate]
      omega
    · have hpage : x / m.header.pageSize = i := Nat.div_eq_of_lt_le hstart hend
      have hzero := memoryByte_eq_zero hconsistent ho hkinds (hpage ▸ hkind) hlegal hiterated
      have hshown := getElem?_zeroFilled_drop hconsistent ho hbuild hx (Nat.zero_add _).le
      rwa [List.drop_zero, Nat.zero_add, hzero] at hshown
  · exact regions_eq_ok hconsistent hdata wanted

/-- The first object has two pages with entries and a third behind them, of which eight bytes are
memory; it is the only object with a code region. -/
theorem views_agree_sample :
    decode (Blueprint.sample.source .little) 3 ⟨false, none⟩ "SAMPLE.EXE" none = .ok sampleImage ∧
      (∃ data, sampleImage.objectData = .ok data ∧ ∃ bytes, data[0]? = some bytes ∧
        bytes.length = 32 ∧ (View.zeroFilled 40 bytes)[37]? = some 0) ∧
      (∃ kinds, sampleImage.objectPageKinds 1 = .ok kinds ∧ kinds.length = 3) ∧
      (∃ regions, sampleImage.regions ObjectEntry.isCode = .ok regions ∧ regions.length = 1) := by
  have hdata : sampleImage.objectData = .ok [7 :: 8 :: List.replicate 14 0 ++ [5, 6, 7, 5, 6, 7] ++
      List.replicate 10 0, List.replicate 16 0] := by decide +kernel
  have hfirst : (⟨1, 40, 0x10000, 5, 1, 2, 0⟩ : ObjectEntry) ∈ sampleImage.objects := by decide
  have hkinds : sampleImage.objectPageKinds 1 = .ok [.legal, .iterated, .zeroFilled] := by
    decide +kernel
  obtain ⟨hobjects, -, hregions, -⟩ := views_agree decode_sampleImage hdata
  obtain ⟨entries, kinds, bytes, -, hsame, hbytes, -, hlength, -, hzero, hsize⟩ :=
    hobjects _ hfirst
  obtain rfl := Except.ok.inj (hkinds.symm.trans hsame)
  obtain ⟨regions, hcode, hshown⟩ := hregions ObjectEntry.isCode List.mem_cons_self
  exact ⟨decode_sampleImage, ⟨_, hdata, bytes, hbytes, hsize,
      hzero 2 .zeroFilled 37 rfl (by decide) (by decide) (by decide) (by decide) (by decide)⟩,
    ⟨_, hsame, hlength⟩, regions, hcode, hshown.length_eq.symm⟩

end ModuleImage

end LinearExecutable
