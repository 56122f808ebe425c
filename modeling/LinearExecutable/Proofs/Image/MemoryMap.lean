import LinearExecutable.Image.Basic
import LinearExecutable.Proofs.Image.RoundTrip

/-!
# The memory map of a module

A read from the memory of a module returns, byte by byte, what `ModuleImage.memoryByte` says: the
bytes of the page that an offset falls on, and zeros where there are none.
-/

namespace LinearExecutable

open Fixup (Effort)

/-! ## 1. Lists filled up with zeros -/

namespace View

theorem length_zeroFilled (n : Nat) (bytes : List UInt8) : (zeroFilled n bytes).length = n := by
  rw [zeroFilled]
  rw [List.length_append, List.length_replicate, List.length_take]
  omega

-- Within its length, a list filled up with zeros has the bytes of the list and zeros behind.
theorem getD_zeroFilled {n i : Nat} (bytes : List UInt8) (h : i < n) :
    (zeroFilled n bytes)[i]?.getD 0 = bytes[i]?.getD 0 := by
  rw [zeroFilled]
  by_cases hpresent : i < bytes.length
  · rw [List.getElem?_append_left (by rw [List.length_take]; omega), List.getElem?_take, if_pos h]
  · rw [List.getElem?_append_right (by rw [List.length_take]; omega), List.getElem?_replicate,
      List.getElem?_eq_none (by omega : bytes.length ≤ i)]
    split <;> rfl

end View

/-! ## 2. Pages side by side -/

namespace ModuleImage

/-- Within the object, byte `x` of the pages laid side by side is byte `x % pageSize` of page
`x / pageSize`. -/
theorem getD_layPages {pageSize room x : Nat} (hpos : 0 < pageSize) (hx : x < room)
    (pages : List (List UInt8)) :
    (layPages pageSize room pages)[x]?.getD 0 =
      (pages[x / pageSize]?.getD [])[x % pageSize]?.getD 0 := by
  induction pages generalizing room x with
  | nil => rfl
  | cons page pages ih =>
    rw [layPages, if_neg (by omega)]
    dsimp only
    by_cases hhere : x < min pageSize room
    · rw [List.getElem?_append_left (by rw [View.length_zeroFilled]; exact hhere),
        View.getD_zeroFilled page hhere, Nat.div_eq_of_lt (by omega), Nat.mod_eq_of_lt (by omega)]
      rfl
    · -- the first page is laid in full, so the rest starts a page further on
      obtain ⟨y, rfl⟩ : ∃ y, x = y + pageSize := ⟨x - pageSize, by omega⟩
      have hfull : min pageSize room = pageSize := by omega
      rw [hfull, List.getElem?_append_right (by rw [View.length_zeroFilled]; omega),
        View.length_zeroFilled, Nat.add_sub_cancel, ih (by omega), Nat.add_div_right y hpos,
        Nat.add_mod_right, List.getElem?_cons_succ]

-- Pages laid side by side take up a page size each, as far as there is room.
theorem length_layPages (pageSize room : Nat) (pages : List (List UInt8)) :
    (layPages pageSize room pages).length = min (pages.length * pageSize) room := by
  induction pages generalizing room with
  | nil => rw [layPages, List.length_nil, List.length_nil, Nat.zero_mul, Nat.zero_min]
  | cons page pages ih =>
    rw [layPages]
    split
    · rename_i hnone
      rw [hnone, Nat.min_zero, List.length_nil]
    · rw [List.length_append, View.length_zeroFilled, ih, List.length_cons, Nat.succ_mul]
      omega

-- The pages of an object among those of the module.
theorem getElem?_ofObject {α : Type} (o : ObjectEntry) (perPage : List α) (i : Nat) :
    (ofObject o perPage)[i]? = if i < o.pageCount then perPage[o.firstPage - 1 + i]? else none := by
  rw [ofObject]
  by_cases hempty : o.pageCount = 0
  · rw [if_pos hempty, if_neg (by omega)]
    rfl
  · rw [if_neg hempty, List.getElem?_take, List.getElem?_drop]

/-! ## 3. The memory map -/

/-- The byte at a place of a page that is loaded: what is stored, what the stored repetitions
spell, or zero. -/
def pageByte (m : ModuleImage) (page : PageEntry) (stored : List UInt8) (j : Nat) : UInt8 :=
  match page.kind with
  | .legal => stored[j]?.getD 0
  | .iterated =>
    match IteratedPage.expand m.order m.header.pageSize stored with
    | .ok bytes => bytes[j]?.getD 0
    | .error _ => 0
  | .invalid | .zeroFilled | .range | .compressed => 0

/-- The byte of memory at an offset of an object. -/
def memoryByte (m : ModuleImage) (o : ObjectEntry) (x : Nat) : UInt8 :=
  let i := x / m.header.pageSize
  if o.pageCount ≤ i then 0
  else
    match m.pageTable[o.firstPage + i - 1]?, m.pages[o.firstPage + i - 1]? with
    | some page, some stored => m.pageByte page stored (x % m.header.pageSize)
    | _, _ => 0

/-- Some iterated page of the module cannot be expanded. -/
def Unexpandable (m : ModuleImage) : Prop :=
  ∃ page ∈ m.pageTable.zip m.pages, page.1.kind = .iterated ∧
    ∀ bytes, IteratedPage.expand m.order m.header.pageSize page.2 ≠ .ok bytes

theorem getD_loadedPage {m : ModuleImage} {page : PageEntry} {stored loaded : List UInt8}
    (h : m.loadedPage page stored = .ok loaded) (j : Nat) :
    loaded[j]?.getD 0 = m.pageByte page stored j := by
  unfold loadedPage at h
  unfold pageByte
  cases hkind : page.kind with
  | legal =>
    rw [hkind] at h
    cases h
    rfl
  | iterated =>
    rw [hkind] at h
    dsimp only at h ⊢
    rw [h]
  | _ =>
    rw [hkind] at h
    cases h
    rfl

theorem buildObject_eq (m : ModuleImage) (o : ObjectEntry) :
    m.buildObject o =
      ((ofObject o (m.pageTable.zip m.pages)).mapM fun x => m.loadedPage x.1 x.2) >>=
        fun loaded => .ok (layPages m.header.pageSize o.virtualSize loaded) := rfl

-- No more of an object is initialised than it has.
theorem length_buildObject_le {m : ModuleImage} {o : ObjectEntry} {bytes : List UInt8}
    (h : m.buildObject o = .ok bytes) : bytes.length ≤ o.virtualSize := by
  rw [buildObject_eq, Except.bind_eq_ok_iff] at h
  obtain ⟨loaded, -, h⟩ := h
  cases h
  rw [length_layPages]
  exact Nat.min_le_right _ _

/-- Inside the object, its initialised bytes with zeros behind them are its memory. -/
theorem getD_buildObject {m : ModuleImage} (hm : m.Consistent) {o : ObjectEntry}
    (ho : o ∈ m.objects) {bytes : List UInt8} (hbytes : m.buildObject o = .ok bytes) {x : Nat}
    (hx : x < o.virtualSize) : bytes[x]?.getD 0 = m.memoryByte o x := by
  rw [buildObject_eq, Except.bind_eq_ok_iff] at hbytes
  obtain ⟨loaded, hloaded, h⟩ := hbytes
  cases h
  have hall := Except.mapM_eq_ok_iff.mp hloaded
  rw [getD_layPages hm.pageSize_pos hx, memoryByte]
  -- from here on only the number of the page counts, not where in it the byte is
  generalize x / m.header.pageSize = i
  by_cases hi : o.pageCount ≤ i
  · have hnone : loaded[i]? = none := by
      rw [List.getElem?_eq_none_iff, ← hall.length_eq, ← List.getElem?_eq_none_iff,
        getElem?_ofObject, if_neg (by omega)]
    rw [if_pos hi, hnone]
    rfl
  · -- the page is one of the module, so it has an entry and stored bytes
    have hfirst := (mem_pages_of_mem_object hm.owned ho (by omega : 0 < o.pageCount)).1
    have hlast := (mem_pages_of_mem_object hm.owned ho (by omega : i < o.pageCount)).2
    obtain ⟨page, hpage⟩ : ∃ page, m.pageTable[o.firstPage + i - 1]? = some page :=
      ⟨_, List.getElem?_eq_getElem (by omega)⟩
    obtain ⟨stored, hstored⟩ : ∃ stored, m.pages[o.firstPage + i - 1]? = some stored :=
      ⟨_, List.getElem?_eq_getElem (by rw [hm.stored]; omega)⟩
    have hboth : (ofObject o (m.pageTable.zip m.pages))[i]? = some (page, stored) := by
      rw [getElem?_ofObject, if_pos (by omega), List.getElem?_zip_eq_some,
        show o.firstPage - 1 + i = o.firstPage + i - 1 by omega]
      exact ⟨hpage, hstored⟩
    obtain ⟨shown, hshown, hload⟩ := Except.getElem?_of_mapM hloaded hboth
    rw [if_neg hi, hpage, hstored, hshown]
    exact getD_loadedPage hload _

/-! ## 4. Pages that cannot be expanded -/

theorem expandFrom_eq_error {order : ByteOrder} {offset room : Nat} {bytes : List UInt8} {e : Error}
    (h : IteratedPage.expandFrom order offset room bytes = .error e) :
    ∃ place, e = .truncated (.iterated place) := by
  fun_induction IteratedPage.expandFrom order offset room bytes with
  | case1 => contradiction
  | case2 offset =>
    cases h
    exact ⟨offset, rfl⟩
  | case3 offset room b₀ b₁ b₂ b₃ rest hroom length pattern onward hlong ih =>
    apply ih
    generalize hothers : IteratedPage.expandFrom _ _ _ _ = others
    replace h : (IteratedPage.expandFrom _ _ _ _ >>= _) = .error e := h
    rw [hothers] at h
    cases others with
    | ok bytes => contradiction
    | error e' => exact h
  | case4 => contradiction

-- A page that cannot be loaded is an iterated one that cannot be expanded.
theorem loadedPage_eq_error {m : ModuleImage} {page : PageEntry} {stored : List UInt8} {e : Error}
    (h : m.loadedPage page stored = .error e) :
    page.kind = .iterated ∧ IteratedPage.expand m.order m.header.pageSize stored = .error e ∧
      ∃ place, e = .truncated (.iterated place) := by
  unfold loadedPage at h
  split at h
  · contradiction
  · rename_i hkind
    exact ⟨hkind, h, expandFrom_eq_error h⟩
  all_goals contradiction

/-- Building the objects fails only on an iterated page of the module that cannot be expanded. -/
theorem unexpandable_of_objectData {m : ModuleImage} {e : Error} (h : m.objectData = .error e) :
    m.Unexpandable ∧ ∃ place, e = .truncated (.iterated place) := by
  obtain ⟨o, ho, hobject⟩ := Except.exists_of_mapM_eq_error h
  cases hloaded : (ofObject o (m.pageTable.zip m.pages)).mapM fun x => m.loadedPage x.1 x.2 with
  | ok loaded =>
    rw [buildObject_eq, hloaded] at hobject
    contradiction
  | error e' =>
    rw [buildObject_eq, hloaded] at hobject
    cases hobject
    obtain ⟨⟨page, stored⟩, hmem, hpage⟩ := Except.exists_of_mapM_eq_error hloaded
    obtain ⟨hkind, hexpand, hplace⟩ := loadedPage_eq_error hpage
    refine ⟨⟨(page, stored), ?_, hkind, fun bytes hok => ?_⟩, hplace⟩
    · rw [ofObject] at hmem
      split at hmem
      · contradiction
      · exact List.mem_of_mem_drop (List.mem_of_mem_take hmem)
    · rw [hexpand] at hok
      contradiction

-- The objects have all pages of the module, so none of these can be expanded without the other.
theorem not_unexpandable_of_objectData {m : ModuleImage} (hm : m.Consistent)
    {data : List (List UInt8)} (h : m.objectData = .ok data) : ¬m.Unexpandable := by
  intro hunexpandable
  obtain ⟨⟨page, stored⟩, hmem, hkind, hexpand⟩ := hunexpandable
  obtain ⟨p, hp⟩ := List.mem_iff_getElem?.mp hmem
  have hpage : p < m.pageTable.length := by
    have := (List.getElem?_eq_some_iff.mp hp).1
    rw [List.length_zip] at this
    omega
  -- the object that has the page was built, so the page was expanded
  obtain ⟨o, ho, hfirst, hlast⟩ := exists_owner hm.owned (by omega : 1 ≤ p + 1) (by omega)
  obtain ⟨k, hk⟩ := List.mem_iff_getElem?.mp ho
  obtain ⟨bytes, -, hobject⟩ := Except.getElem?_of_mapM h hk
  rw [buildObject_eq, Except.bind_eq_ok_iff] at hobject
  obtain ⟨loaded, hloaded, -⟩ := hobject
  have howned := (mem_pages_of_mem_object hm.owned ho (by omega : 0 < o.pageCount)).1
  have hof : (ofObject o (m.pageTable.zip m.pages))[p + 1 - o.firstPage]? =
      some (page, stored) := by
    rw [getElem?_ofObject, if_pos (by omega), ← hp]
    congr 1
    omega
  obtain ⟨shown, -, hload⟩ := Except.getElem?_of_mapM hloaded hof
  replace hload : m.loadedPage page stored = .ok shown := hload
  rw [loadedPage, show page.kind = .iterated from hkind] at hload
  exact hexpand shown hload

end ModuleImage

/-! ## 5. Reading -/

/-- An address lies in the memory of an object. -/
def ObjectEntry.Covers (o : ObjectEntry) (address : Int) : Prop :=
  o.base ≤ address ∧ address < o.base + o.virtualSize

theorem ObjectEntry.containsAddress_iff {o : ObjectEntry} {address : Int} :
    o.containsAddress address = true ↔ o.Covers address := by
  rw [containsAddress, Bool.and_eq_true, decide_eq_true_eq, decide_eq_true_eq, endAddress, Covers]
  push_cast
  rfl

namespace ModuleImage

-- An address is looked up in the first object that covers it.
theorem relativeAddress_of_first {m : ModuleImage} {address : Int} {before after : List ObjectEntry}
    {o : ObjectEntry} (hobjects : m.objects = before ++ o :: after)
    (hbefore : ∀ p ∈ before, ¬p.Covers address) (ho : o.Covers address) :
    m.relativeAddress address = .ok (o, address - o.base) := by
  have hfind : m.objects.find? (fun o => o.containsAddress address) = some o := by
    rw [List.find?_eq_some_iff_append]
    refine ⟨ObjectEntry.containsAddress_iff.mpr ho, before, after, hobjects, fun p hp => ?_⟩
    rw [Bool.not_eq_true', ← Bool.not_eq_true, ObjectEntry.containsAddress_iff]
    exact hbefore p hp
  rw [relativeAddress, hfind]

theorem relativeAddress_of_none {m : ModuleImage} {address : Int}
    (h : ∀ o ∈ m.objects, ¬o.Covers address) :
    m.relativeAddress address = .error (.invalidAddress (some m.path) address) := by
  have hfind : m.objects.find? (fun o => o.containsAddress address) = none := by
    rw [List.find?_eq_none]
    exact fun o ho => ObjectEntry.containsAddress_iff.not.mpr (h o ho)
  rw [relativeAddress, hfind]

-- The bytes of an object stand at its number.
theorem getElem?_objectData {m : ModuleImage} (hm : m.Consistent) {data : List (List UInt8)}
    (hdata : m.objectData = .ok data) {o : ObjectEntry} (ho : o ∈ m.objects) :
    ∃ bytes, data[o.number - 1]? = some bytes ∧ m.buildObject o = .ok bytes := by
  obtain ⟨k, hk⟩ := List.mem_iff_getElem?.mp ho
  have hnumber : (m.objects.map ObjectEntry.number)[k]? = some o.number := by
    rw [List.getElem?_map, hk]
    rfl
  rw [hm.numbered, List.getElem?_range' (List.getElem?_eq_some_iff.mp hk).1,
    Option.some.injEq] at hnumber
  obtain rfl : o.number - 1 = k := by omega
  exact Except.getElem?_of_mapM hdata hk

-- Where memory is looked up and how a read goes on from there.
theorem seek_of_first {m : ModuleImage} (hm : m.Consistent) {address : Int}
    {before after : List ObjectEntry} {o : ObjectEntry}
    (hobjects : m.objects = before ++ o :: after)
    (hbefore : ∀ p ∈ before, ¬p.Covers address) (ho : o.Covers address)
    {data : List (List UInt8)} (hdata : m.objectData = .ok data) :
    ∃ bytes, m.buildObject o = .ok bytes ∧
      m.seek address =
        .ok ⟨bytes.drop (address - o.base).toNat, o.virtualSize - (address - o.base)⟩ := by
  have hmem : o ∈ m.objects := by rw [hobjects]; simp
  obtain ⟨bytes, hplace, hbuild⟩ := getElem?_objectData hm hdata hmem
  refine ⟨bytes, hbuild, ?_⟩
  rw [seek, relativeAddress_of_first hobjects hbefore ho, Except.bind_ok]
  dsimp only
  rw [hdata, Except.bind_ok, hplace]
  rfl

-- What looking up an address comes to, if it succeeds.
theorem of_seek_eq_ok {m : ModuleImage} (hm : m.Consistent) {address : Int} {view : View}
    (h : m.seek address = .ok view) :
    ∃ o ∈ m.objects, o.Covers address ∧ ∃ bytes, m.buildObject o = .ok bytes ∧
      view = ⟨bytes.drop (address - o.base).toNat, o.virtualSize - (address - o.base)⟩ := by
  rw [seek, Except.bind_eq_ok_iff] at h
  obtain ⟨⟨o, offset⟩, hfound, h⟩ := h
  rw [Except.bind_eq_ok_iff] at h
  obtain ⟨data, hdata, h⟩ := h
  rw [relativeAddress] at hfound
  split at hfound
  · rename_i first hfirst
    cases hfound
    have ho := List.mem_of_find?_eq_some hfirst
    have hin : o.containsAddress address = true := by simpa using List.find?_some hfirst
    obtain ⟨bytes, hplace, hbuild⟩ := getElem?_objectData hm hdata ho
    rw [hplace] at h
    cases h
    exact ⟨o, ho, ObjectEntry.containsAddress_iff.mp hin, bytes, hbuild, rfl⟩
  · contradiction

theorem seek_of_none {m : ModuleImage} {address : Int} (h : ∀ o ∈ m.objects, ¬o.Covers address) :
    m.seek address = .error (.invalidAddress (some m.path) address) := by
  rw [seek, relativeAddress_of_none h]
  rfl

-- All objects are built before the one that covers the address is looked at.
theorem seek_of_error {m : ModuleImage} {address : Int} {before after : List ObjectEntry}
    {o : ObjectEntry} (hobjects : m.objects = before ++ o :: after)
    (hbefore : ∀ p ∈ before, ¬p.Covers address) (ho : o.Covers address) {e : Error}
    (hdata : m.objectData = .error e) : m.seek address = .error e := by
  rw [seek, relativeAddress_of_first hobjects hbefore ho, Except.bind_ok]
  dsimp only
  rw [hdata]
  rfl

-- What a view of the memory of an object shows, byte by byte.
theorem getElem?_zeroFilled_drop {m : ModuleImage} (hm : m.Consistent) {o : ObjectEntry}
    (ho : o ∈ m.objects) {bytes : List UInt8} (hbuild : m.buildObject o = .ok bytes)
    {start size k : Nat} (hk : k < size) (hroom : start + size ≤ o.virtualSize) :
    (View.zeroFilled size (bytes.drop start))[k]? = some (m.memoryByte o (start + k)) := by
  have hpresent : k < (View.zeroFilled size (bytes.drop start)).length := by
    rw [View.length_zeroFilled]
    exact hk
  have hbyte := View.getD_zeroFilled (bytes.drop start) hk
  rw [List.getElem?_drop, getD_buildObject hm ho hbuild (by omega),
    List.getElem?_eq_getElem hpresent, Option.getD_some] at hbyte
  rw [List.getElem?_eq_getElem hpresent, hbyte]

end ModuleImage

theorem Image.read_of_seek_error {image : Image} {address : Int} {e : Error}
    (h : image.seek address = .error e) (size : Int) : image.read address size = .error e := by
  rw [read, h]
  rfl

-- A read takes what it needs of the memory from its address on.
theorem Image.read_of_seek {image : Image} {address : Int} {view : View}
    (h : image.seek address = .ok view) (size : Int) :
    image.read address size =
      if size < 0 ∨ view.remaining < size then .error (.invalidRead image.path size address)
      else .ok (View.zeroFilled size.toNat view.bytes) := by
  rw [read, h, Except.bind_ok, View.read?]
  split
  · rename_i bytes hbytes
    split at hbytes
    · contradiction
    · rename_i hroom
      cases hbytes
      rw [if_neg hroom]
      rfl
  · rename_i hnone
    split at hnone
    · rename_i hroom
      rw [if_pos hroom]
      rfl
    · contradiction

/-- Reads from a decoded module. An address outside every object is refused. Else a module with an
iterated page that cannot be expanded is; else a read that does not fit into the rest of the first
object that covers the address; else the bytes of that object's memory are returned. -/
theorem Image.read_ofModule {file : Source} {offset : Int} {effort : Effort} {path : String}
    {dosHeader? : Option DosHeader} {m : ModuleImage}
    (hm : ModuleImage.decode file offset effort path dosHeader? = .ok m) (address size : Int) :
    ((∀ o ∈ m.objects, ¬o.Covers address) →
      (ofModule m).read address size = .error (.invalidAddress (some m.path) address)) ∧
    ∀ before o after, m.objects = before ++ o :: after → (∀ p ∈ before, ¬p.Covers address) →
      o.Covers address →
      (m.Unexpandable →
        ∃ place, (ofModule m).read address size = .error (.truncated (.iterated place))) ∧
      (¬m.Unexpandable → size < 0 ∨ o.virtualSize - (address - o.base) < size →
        (ofModule m).read address size = .error (.invalidRead m.path size address)) ∧
      (¬m.Unexpandable → 0 ≤ size → size ≤ o.virtualSize - (address - o.base) →
        ∃ bytes, (ofModule m).read address size = .ok bytes ∧ (bytes.length : Int) = size ∧
          ∀ k < bytes.length,
            bytes[k]? = some (m.memoryByte o ((address - o.base).toNat + k))) := by
  have hconsistent := ModuleImage.consistent_of_decode hm
  refine ⟨fun hnone => ?_, fun before o after hobjects hbefore ho => ?_⟩
  · have hseek : (ofModule m).seek address = _ := ModuleImage.seek_of_none hnone
    exact read_of_seek_error hseek size
  · cases hdata : m.objectData with
    | error e =>
      obtain ⟨hunexpandable, place, rfl⟩ := ModuleImage.unexpandable_of_objectData hdata
      have hseek : (ofModule m).seek address = _ :=
        ModuleImage.seek_of_error hobjects hbefore ho hdata
      refine ⟨fun _ => ⟨place, read_of_seek_error hseek size⟩, fun h => ?_, fun h => ?_⟩
      · exact absurd hunexpandable h
      · exact absurd hunexpandable h
    | ok data =>
      have hexpandable := ModuleImage.not_unexpandable_of_objectData hconsistent hdata
      obtain ⟨bytes, hbuild, hseek⟩ :=
        ModuleImage.seek_of_first hconsistent hobjects hbefore ho hdata
      replace hseek : (ofModule m).seek address = .ok _ := hseek
      rw [read_of_seek hseek]
      refine ⟨fun h => absurd h hexpandable, fun _ hsize => ?_, fun _ hnonneg hle => ?_⟩
      · rw [if_pos hsize]
        rfl
      · have hfits : ¬(size < 0 ∨ o.virtualSize - (address - o.base) < size) := by omega
        have hmem : o ∈ m.objects := by rw [hobjects]; simp
        have hbase := ho.1
        rw [if_neg hfits]
        refine ⟨_, rfl, by rw [View.length_zeroFilled]; omega, fun k hk => ?_⟩
        rw [View.length_zeroFilled] at hk
        exact ModuleImage.getElem?_zeroFilled_drop hconsistent hmem hbuild hk (by omega)

/-- Eight bytes across the boundary between a stored and an iterated page. -/
theorem Image.read_ofModule_sample :
    ModuleImage.decode (Blueprint.sample.source .little) 3 ⟨false, none⟩ "SAMPLE.EXE" none =
        .ok sampleImage ∧
      ∃ bytes, (ofModule sampleImage).read 0x1000d 8 = .ok bytes ∧ bytes.length = 8 ∧
        ∀ k < bytes.length, bytes[k]? =
          some (sampleImage.memoryByte ⟨1, 40, 0x10000, 5, 1, 2, 0⟩ (13 + k)) := by
  have hobjects : sampleImage.objects =
      [] ++ ⟨1, 40, 0x10000, 5, 1, 2, 0⟩ :: [⟨2, 16, 0x20000, 3, 3, 1, 0⟩] := by decide
  have hdata : sampleImage.objectData = .ok [7 :: 8 :: List.replicate 14 0 ++ [5, 6, 7, 5, 6, 7] ++
      List.replicate 10 0, List.replicate 16 0] := by decide +kernel
  have hexpandable := ModuleImage.not_unexpandable_of_objectData
    (ModuleImage.consistent_of_decode decode_sampleImage) hdata
  have hread := (read_ofModule decode_sampleImage 0x1000d 8).2 _ _ _ hobjects (by simp)
    ⟨by decide, by decide⟩
  obtain ⟨bytes, hok, hlen, hbytes⟩ := hread.2.2 hexpandable (by decide) (by decide)
  exact ⟨decode_sampleImage, bytes, hok, by exact_mod_cast hlen, hbytes⟩

end LinearExecutable
