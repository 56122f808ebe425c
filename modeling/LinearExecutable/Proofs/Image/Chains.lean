import LinearExecutable.Image.Chains
import LinearExecutable.Proofs.Fixup.Chain
import LinearExecutable.Proofs.Image.MemoryMap
import LinearExecutable.Proofs.Image.Pages

/-!
# Chains and memory

A chain is followed through the bytes of its page as the file stores them, so each of its links
shows a word that is stored. On a page that is loaded as it is stored, a link that lies in the page
shows the word that a read from memory returns. An iterated page is stored as repetitions: there a
chain runs through the repetition records, and its links are no words of the memory.
-/

namespace LinearExecutable

open Fixup (ChainLink Effort Record)

/-! ## 1. Links -/

namespace Fixup

/-- A link shows the word that is stored at its place. -/
def ChainLink.StoredIn (order : ByteOrder) (data : List UInt8) (link : ChainLink) : Prop :=
  pageWord? order data link.source = some link.value

/-- Every link of a chain shows the word that is stored at its place. -/
theorem storedIn_of_resolveChain {order : ByteOrder} {head : Record} {data : List UInt8}
    {pageSize page : Int} {links : List ChainLink}
    (h : resolveChain order head data pageSize page = .ok links) :
    ∀ link ∈ links, link.StoredIn order data := by
  obtain ⟨hchained, start, rest, hoffsets⟩ := head_of_resolveChain h
  obtain ⟨k, -, hends, rfl⟩ := (resolveChain_eq_ok_iff hchained hoffsets).mp h
  intro link hlink
  obtain ⟨i, hi, rfl⟩ := List.mem_map.mp hlink
  rw [List.mem_range] at hi
  obtain ⟨hnonneg, hle⟩ := hends.inside_of_le (by omega : i ≤ k)
  exact pageWord?_eq_some_iff.mpr ⟨hnonneg, hle, rfl⟩

end Fixup

/-! ## 2. Pages -/

namespace ModuleImage

/-- Every link that the chains of a page have shows a word that the file stores for the page. -/
theorem storedIn_of_chains {m : ModuleImage} {page : Int} {outcomes : List ChainOutcome}
    (h : m.chains page = .ok outcomes) {outcome : ChainOutcome} (houtcome : outcome ∈ outcomes) :
    ∃ stored, m.pageData page = .ok stored ∧
      ∀ link ∈ outcome.links, link.StoredIn m.order stored := by
  obtain ⟨stored, hstored, h⟩ := Except.bind_eq_ok_iff.mp h
  obtain ⟨records, -, h⟩ := Except.bind_eq_ok_iff.mp h
  obtain ⟨head, -, hfollow⟩ := exists_left_of_forall₂ (Except.mapM_eq_ok_iff.mp h) houtcome
  refine ⟨stored, hstored, ?_⟩
  unfold followChain at hfollow
  split at hfollow
  · rename_i links hresolve
    cases hfollow
    exact Fixup.storedIn_of_resolveChain hresolve
  · cases hfollow
    exact fun link hlink => by contradiction
  · contradiction

/-! ## 3. Memory -/

-- A place in a page of an object is a place in the memory of the object.
theorem memoryByte_of_page {m : ModuleImage} {o : ObjectEntry} {i j : Nat} {page : PageEntry}
    {stored : List UInt8} (hj : j < m.header.pageSize) (hi : i < o.pageCount)
    (hpage : m.pageTable[o.firstPage + i - 1]? = some page)
    (hstored : m.pages[o.firstPage + i - 1]? = some stored) :
    m.memoryByte o (i * m.header.pageSize + j) = m.pageByte page stored j := by
  have hpos : 0 < m.header.pageSize := by omega
  have hdiv : (i * m.header.pageSize + j) / m.header.pageSize = i := by
    rw [Nat.mul_comm, Nat.mul_add_div hpos, Nat.div_eq_of_lt hj, Nat.add_zero]
  have hmod : (i * m.header.pageSize + j) % m.header.pageSize = j := by
    rw [Nat.mul_comm, Nat.mul_add_mod, Nat.mod_eq_of_lt hj]
  rw [memoryByte, hdiv, hmod, if_neg (by omega), hpage, hstored]

-- Four bytes inside a page that is loaded as it is stored are shown as they are stored.
theorem zeroFilled_of_legal {m : ModuleImage} (hm : m.Consistent) {o : ObjectEntry}
    (ho : o ∈ m.objects) {bytes : List UInt8} (hbuild : m.buildObject o = .ok bytes) {i j : Nat}
    {page : PageEntry} {stored : List UInt8} (hi : i < o.pageCount)
    (hpage : m.pageTable[o.firstPage + i - 1]? = some page)
    (hstored : m.pages[o.firstPage + i - 1]? = some stored) (hlegal : page.kind = .legal)
    (hinside : j + 4 ≤ m.header.pageSize) (hpresent : j + 4 ≤ stored.length)
    (hroom : i * m.header.pageSize + j + 4 ≤ o.virtualSize) :
    View.zeroFilled 4 (bytes.drop (i * m.header.pageSize + j)) = (stored.drop j).take 4 := by
  apply List.ext_getElem?
  intro k
  by_cases hk : k < 4
  · rw [getElem?_zeroFilled_drop hm ho hbuild hk hroom, Nat.add_assoc,
      memoryByte_of_page (by omega) hi hpage hstored, pageByte, hlegal, List.getElem?_take,
      if_pos hk, List.getElem?_drop, List.getElem?_eq_getElem (by omega : j + k < stored.length)]
    rfl
  · rw [List.getElem?_eq_none (by rw [View.length_zeroFilled]; omega),
      List.getElem?_eq_none (by rw [List.length_take]; omega)]

/-- The word that a view of the memory of an object shows at a place; `data` are the initialised
bytes of the objects. -/
def ShowsWord (m : ModuleImage) (data : List (List UInt8)) (o : ObjectEntry) (place : Int)
    (value : Nat) : Prop :=
  ∃ bytes shown, data[o.number - 1]? = some bytes ∧
    View.read? ⟨bytes.drop place.toNat, o.virtualSize - place⟩ 4 = some shown ∧
    m.order.word shown = value

/-- What the links of a chain show. A link shows the word that the file stores at its place of the
page. If the page is loaded as it is stored, and the place lies in the page and in the object, that
is also the word at the place in the memory of the object. -/
theorem word_of_chain_link {file : Source} {offset : Int} {effort : Effort} {path : String}
    {dosHeader? : Option DosHeader} {m : ModuleImage}
    (hm : decode file offset effort path dosHeader? = .ok m) {data : List (List UInt8)}
    (hdata : m.objectData = .ok data) {p : Int} {o : ObjectEntry} (howner : m.pageOwner p = .ok o)
    {outcomes : List ChainOutcome} (hchains : m.chains p = .ok outcomes) {outcome : ChainOutcome}
    (houtcome : outcome ∈ outcomes) {link : ChainLink} (hlink : link ∈ outcome.links) :
    (∃ stored, m.pageData p = .ok stored ∧
      Fixup.pageWord? m.order stored link.source = some link.value) ∧
    ∀ page, m.ofPage p m.pageTable = .ok page → page.kind = .legal →
      link.source + 4 ≤ m.header.pageSize →
      (p - o.firstPage) * m.header.pageSize + link.source + 4 ≤ o.virtualSize →
      m.ShowsWord data o ((p - o.firstPage) * m.header.pageSize + link.source) link.value := by
  obtain ⟨stored, hstored, hall⟩ := storedIn_of_chains hchains houtcome
  have hword := hall link hlink
  refine ⟨⟨stored, hstored, hword⟩, fun page hpage hlegal hinside hroom => ?_⟩
  have hconsistent := consistent_of_decode hm
  obtain ⟨ho, hfirst, hlast⟩ := of_pageOwner howner
  obtain ⟨bytes, hbytes, hbuild⟩ := getElem?_objectData hconsistent hdata ho
  obtain ⟨hnonneg, hpresent, hvalue⟩ := Fixup.pageWord?_eq_some_iff.mp hword
  -- the place counted from the start of the object, in natural numbers
  obtain ⟨i, hi⟩ := Int.eq_ofNat_of_zero_le (show 0 ≤ p - o.firstPage by omega)
  obtain ⟨j, hj⟩ := Int.eq_ofNat_of_zero_le hnonneg
  have hplace : (p - 1).toNat = o.firstPage + i - 1 := by
    have := (ofPage_eq_ok_iff.mp hpage).1
    omega
  have hat : (p - o.firstPage) * m.header.pageSize + link.source =
      (i * m.header.pageSize + j : Nat) := by
    rw [hi, hj]
    push_cast
    rfl
  have hshown := zeroFilled_of_legal hconsistent ho hbuild (i := i) (j := j) (by omega)
    (hplace ▸ (ofPage_eq_ok_iff.mp hpage).2.2) (hplace ▸ (ofPage_eq_ok_iff.mp hstored).2.2) hlegal
    (by omega) (by omega) (by omega)
  rw [hat] at hroom ⊢
  refine ⟨bytes, View.zeroFilled 4 (bytes.drop (i * m.header.pageSize + j)), hbytes, ?_, ?_⟩
  · rw [View.read?, if_neg (by dsimp only; omega), Int.toNat_natCast]
    rfl
  · rw [hshown, ← hvalue, hj]
    rfl

end ModuleImage

/-- A module with chains on both of its pages: the first is stored, with more bytes than a page has,
the second is iterated. -/
def Blueprint.chainedSample : Blueprint where
  signature := .lx
  order := .little
  pageSize := 16
  pageShift := 0
  stub := []
  objects := [⟨0x10000, 32, 3, [
    ⟨.legal, [5, 0, 0xf0, 0xff, 0, 0, 0, 0, 0, 0, 0, 0, 0, 0, 6, 0, 0xf0, 0xff, 0, 0],
      [0x07, 0x08, 0, 0, 1, 0, 0, 0x07, 0x08, 14, 0, 1, 0, 0]⟩,
    ⟨.iterated, [1, 0, 4, 0, 5, 0, 0xf0, 0xff], [0x07, 0x08, 0, 0, 1, 0, 0]⟩]⟩]
  importModules := []
  importProcedures := []
  residentNames := []

namespace ModuleImage

-- The chains and the memory of the sample.
theorem decode_chainedSample :
    ∃ m, decode (Blueprint.chainedSample.source .little) 0 ⟨false, none⟩ "" none = .ok m ∧
      m.order = .little ∧ m.header.pageSize = 16 ∧
      m.pageTable = [⟨1, .lx, 0, 20, .legal⟩, ⟨2, .lx, 20, 8, .iterated⟩] ∧
      m.objects = [⟨1, 32, 0x10000, 3, 1, 2, 0⟩] ∧
      m.chains 1 = .ok [
        ⟨⟨⟨0x07, 0x08⟩, [0], .internal 1 (some 0), none, 7⟩, [⟨0, 5, 0xfff00005⟩], none⟩,
        ⟨⟨⟨0x07, 0x08⟩, [14], .internal 1 (some 0), none, 7⟩, [⟨14, 6, 0xfff00006⟩], none⟩] ∧
      m.chains 2 = .ok [
        ⟨⟨⟨0x07, 0x08⟩, [0], .internal 1 (some 0), none, 7⟩, [⟨0, 0x40001, 0x40001⟩], none⟩] ∧
      m.objectData = .ok [[5, 0, 0xf0, 0xff, 0, 0, 0, 0, 0, 0, 0, 0, 0, 0, 6, 0,
        5, 0, 0xf0, 0xff, 0, 0, 0, 0, 0, 0, 0, 0, 0, 0, 0, 0]] :=
  Except.exists_eq_ok (by decide +kernel)

/-- The first link of the sample shows a word of its memory. -/
theorem word_of_chain_link_sample :
    ∃ m data, decode (Blueprint.chainedSample.source .little) 0 ⟨false, none⟩ "" none = .ok m ∧
      m.objectData = .ok data ∧
      m.ShowsWord data ⟨1, 32, 0x10000, 3, 1, 2, 0⟩ 0 0xfff00005 := by
  obtain ⟨m, hm, -, hsize, htable, hobjects, hchains, -, hdata⟩ := decode_chainedSample
  have howner : m.pageOwner 1 = .ok ⟨1, 32, 0x10000, 3, 1, 2, 0⟩ := by
    rw [pageOwner, ofPage, htable, hobjects]
    rfl
  have hpage : m.ofPage 1 m.pageTable = .ok ⟨1, .lx, 0, 20, .legal⟩ := by
    rw [ofPage, htable]
    rfl
  obtain ⟨-, hword⟩ := word_of_chain_link hm hdata howner hchains List.mem_cons_self
    List.mem_cons_self
  have hshown := hword _ hpage rfl (by rw [hsize]; decide) (by rw [hsize]; decide)
  rw [hsize] at hshown
  exact ⟨m, _, hm, hdata, hshown⟩

/-! ## 4. Links that are not in memory -/

/-- Every link of the chains of a page whose place lies in the object of the page shows the word at
that place in the memory of the object. -/
def LinksInMemory (m : ModuleImage) (p : Int) : Prop :=
  ∀ data o outcomes outcome link, m.objectData = .ok data → m.pageOwner p = .ok o →
    m.chains p = .ok outcomes → outcome ∈ outcomes → outcome.overflow? = none →
    link ∈ outcome.links →
    (p - o.firstPage) * m.header.pageSize + link.source + 4 ≤ o.virtualSize →
    m.ShowsWord data o ((p - o.firstPage) * m.header.pageSize + link.source) link.value

/-- On an iterated page a chain runs through the repetition records, and on a page with more bytes
than the page size through bytes that are not loaded: neither shows what is in memory. -/
theorem not_linksInMemory_sample :
    ∃ m, decode (Blueprint.chainedSample.source .little) 0 ⟨false, none⟩ "" none = .ok m ∧
      m.pageTable.map PageEntry.kind = [.legal, .iterated] ∧ ¬m.LinksInMemory 2 ∧
      ¬m.LinksInMemory 1 := by
  obtain ⟨m, hm, horder, hsize, htable, hobjects, hfirst, hsecond, hdata⟩ := decode_chainedSample
  have howner : ∀ p : Int, p = 1 ∨ p = 2 →
      m.pageOwner p = .ok ⟨1, 32, 0x10000, 3, 1, 2, 0⟩ := by
    rintro p (rfl | rfl) <;>
    · rw [pageOwner, ofPage, htable, hobjects]
      rfl
  refine ⟨m, hm, by rw [htable]; rfl, fun hlinks => ?_, fun hlinks => ?_⟩
  · obtain ⟨bytes, shown, hbytes, hshown, hvalue⟩ := hlinks _ _ _ _ _ hdata (howner 2 (.inr rfl))
      hsecond List.mem_cons_self rfl List.mem_cons_self (by rw [hsize]; decide)
    rw [hsize] at hshown
    cases hbytes
    cases hshown
    rw [horder] at hvalue
    exact absurd hvalue (by decide +kernel)
  · obtain ⟨bytes, shown, hbytes, hshown, hvalue⟩ := hlinks _ _ _ _ _ hdata (howner 1 (.inl rfl))
      hfirst (List.mem_cons_of_mem _ List.mem_cons_self) rfl List.mem_cons_self
      (by rw [hsize]; decide)
    rw [hsize] at hshown
    cases hbytes
    cases hshown
    rw [horder] at hvalue
    exact absurd hvalue (by decide +kernel)

end ModuleImage

end LinearExecutable
