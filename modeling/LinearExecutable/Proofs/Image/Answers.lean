import LinearExecutable.Image.Chains
import LinearExecutable.Image.Imports
import LinearExecutable.Proofs.Fixup.Chain
import LinearExecutable.Proofs.Image.Fixups
import LinearExecutable.Proofs.Image.Pages

/-!
# Questions to a decoded module

Once a module is decoded, no question about it is refused because of what stands in the file: each
page has its records, its bytes, its owner and its address, each record tells its kind, each chain
is followed to its end or reported, and the imports can be listed. All of this rests on what
decoding made sure of: records are well formed, every page has an owner, and there are as many
fixups and page data as pages.
-/

namespace LinearExecutable

namespace Fixup

/-! ## 1. Records -/

/-- A record that tells everything its first two bytes say: the kind and the flags of its source,
the type of its target and the flags of that. -/
structure Record.Answers (r : Record) : Prop where
  kind : ∃ kind, r.kind = .ok kind
  source : r.form.source = r.form.kindCode + r.form.sourceFlags
  flags : ∃ code : Nat, code < 4 ∧ r.form.targetType = .ofCode code ∧
    r.form.flags = code + r.form.targetFlags
  target : r.target.type = r.form.targetType

-- A form that is accepted has a defined kind, and no list if it is that of a chain.
theorem of_fault?_eq_none {form : Form} (h : form.fault? = none) :
    (∃ kind, form.kind? = some kind) ∧ (form.isChained = true → form.hasList = false) := by
  unfold Form.fault? at h
  cases hkind : form.kind? with
  | none =>
    rw [hkind] at h
    contradiction
  | some kind =>
    refine ⟨⟨kind, rfl⟩, fun hchained => ?_⟩
    by_contra hlist
    rw [Bool.not_eq_false] at hlist
    simp only [hkind, hchained, hlist, if_true] at h
    split at h
    · contradiction
    · split at h
      · contradiction
      · split at h <;> contradiction

theorem Record.WellFormed.answers {r : Record} (h : r.WellFormed) : r.Answers := by
  obtain ⟨⟨kind, hkind⟩, -⟩ := of_fault?_eq_none h.accepted
  have hsource := h.source
  have hflags := h.flags
  rw [FitsIn, show Word.bound 1 = 256 from rfl] at hsource hflags
  refine ⟨⟨kind, by rw [Record.kind, hkind]⟩, ?_, ⟨(r.form.flags % 4).toNat, ?_, rfl, ?_⟩,
    h.target.type⟩
  · rw [Form.kindCode, Form.sourceFlags]
    omega
  · omega
  · rw [Form.targetFlags]
    omega

/-- The head of a chain is at one place of its page. -/
theorem Record.WellFormed.exists_start {r : Record} (h : r.WellFormed)
    (hchained : r.form.isChained = true) : ∃ start, r.offsets = [start] := by
  have hcount := h.count
  rw [(of_fault?_eq_none h.accepted).2 hchained, if_neg Bool.false_ne_true] at hcount
  exact List.length_eq_one_iff.mp hcount

end Fixup

/-! ## 2. Chains -/

namespace ModuleImage

open Fixup (Effort Record)

/-- What following the chain of a record comes to, whatever the other chains of the page: the links
of the chain, or none and where it overflows. -/
inductive Follows (m : ModuleImage) (page : Int) (data : List UInt8) (head : Record) :
    ChainOutcome → Prop
  | links {start : Int} {links : List Fixup.ChainLink} (hstart : head.offsets = [start])
      (h : Fixup.resolveChain m.order head data m.header.pageSize page = .ok links) :
      Follows m page data head ⟨head, links, none⟩
  | overflow {start : Int} {fault : ChainFault} (hstart : head.offsets = [start])
      (h : Fixup.resolveChain m.order head data m.header.pageSize page =
        .error (.chainOverflow ⟨fault, page, start⟩)) :
      Follows m page data head ⟨head, [], some ⟨fault, page, start⟩⟩

theorem exists_followChain (m : ModuleImage) (page : Int) (data : List UInt8) {head : Record}
    (hhead : head.WellFormed) (hchained : head.form.isChained = true) :
    ∃ outcome, m.followChain page data head = .ok outcome ∧ m.Follows page data head outcome := by
  obtain ⟨start, hstart⟩ := hhead.exists_start hchained
  rcases Fixup.resolveChain_cases hchained hstart m.order data m.header.pageSize page with
    ⟨links, hlinks⟩ | ⟨fault, hfault⟩
  · exact ⟨_, by rw [followChain, hlinks], .links hstart hlinks⟩
  · exact ⟨_, by rw [followChain, hfault], .overflow hstart hfault⟩

/-- The chains of a page are followed one by one. -/
theorem exists_chains {m : ModuleImage} {page : Int} {data : List UInt8} {records : List Record}
    (hdata : m.pageData page = .ok data) (hrecords : m.pageRecords page = .ok records)
    (hwell : ∀ r ∈ records, r.WellFormed) :
    ∃ outcomes, m.chains page = .ok outcomes ∧
      List.Forall₂ (m.Follows page data) (records.filter fun r => r.form.isChained) outcomes := by
  rw [chains, hdata, hrecords]
  refine Except.exists_mapM_eq_ok fun head hhead => ?_
  rw [List.mem_filter] at hhead
  exact m.exists_followChain page data (hwell head hhead.1) hhead.2

/-! ## 3. Modules -/

/-- The start of a module is refused iff the object that it lies in is not there. -/
theorem entry_eq_error_iff {m : ModuleImage} {e : Error} :
    m.entry = .error e ↔
      e = .noObject m.header.entryObject ∧ m.objects.length < m.header.entryObject := by
  rw [entry]
  by_cases hnone : m.header.entryObject = 0
  · rw [if_pos hnone]
    refine iff_of_false (fun h => by contradiction) fun h => ?_
    have := h.2
    omega
  · obtain ⟨i, hi⟩ : ∃ i, m.header.entryObject = i + 1 := ⟨m.header.entryObject - 1, by omega⟩
    rw [if_neg hnone, hi]
    by_cases hmissing : m.objects.length < i + 1
    · rw [object, if_neg (by omega)]
      show Except.error _ = Except.error e ↔ _
      rw [Except.error.injEq, eq_comm, and_iff_left hmissing]
    · rw [object_eq_ok (by omega)]
      exact iff_of_false (fun h => by contradiction) fun h => hmissing h.2

/-- A module that answers every question: what is asked about a page of it, the imports, and the
start, unless the object that it lies in is not there. -/
structure Answers (m : ModuleImage) : Prop where
  pages : ∀ p : Nat, 1 ≤ p → p ≤ m.pageTable.length →
    ∃ records data owner address outcomes,
      m.pageRecords p = .ok records ∧ m.pageData p = .ok data ∧ m.pageOwner p = .ok owner ∧
      m.pageAddress p = .ok address ∧ (∀ r ∈ records, r.Answers) ∧ m.chains p = .ok outcomes ∧
      List.Forall₂ (m.Follows p data) (records.filter fun r => r.form.isChained) outcomes
  imports : ∃ imports, m.imports = .ok imports
  entry : ∀ e, m.entry = .error e ↔
    e = .noObject m.header.entryObject ∧ m.objects.length < m.header.entryObject

section Decoded

variable {file : Source} {offset : Int} {effort : Effort} {path : String}
  {dosHeader? : Option DosHeader} {m : ModuleImage}

/-- The records that are kept of a module are well formed. -/
theorem wellFormed_of_decode (h : decode file offset effort path dosHeader? = .ok m)
    {records : List Record} (hrecords : records ∈ m.fixups) : ∀ r ∈ records, r.WellFormed := by
  rw [fixups, List.mem_map] at hrecords
  obtain ⟨kept, hkept, rfl⟩ := hrecords
  intro r hr
  rcases fixupPages_of_decode h with ⟨-, -, hpages⟩ | ⟨-, -, -, hpages⟩
  · rw [hpages] at hkept
    obtain ⟨-, rfl⟩ := List.mem_replicate.mp hkept
    contradiction
  · obtain ⟨range, -, hpage⟩ := exists_left_of_forall₂ (Except.mapM_eq_ok_iff.mp hpages) hkept
    exact ((Fixup.tiles_of_decodePage hpage).records r hr).1

theorem length_fixups_of_decode (h : decode file offset effort path dosHeader? = .ok m) :
    m.fixups.length = m.pageTable.length := by
  rw [fixups, List.length_map, length_fixupPages_of_decode h, length_pageTable_of_decode h]

theorem exists_pageAddress (h : decode file offset effort path dosHeader? = .ok m) {p : Nat}
    (hfirst : 1 ≤ p) (hlast : p ≤ m.pageTable.length) :
    ∃ owner address, m.pageOwner p = .ok owner ∧ m.pageAddress p = .ok address := by
  obtain ⟨_, o, -, -, howner⟩ := exists_pageOwner (consistent_of_decode h) hfirst hlast
  exact ⟨o, _, howner, pageAddress_of_owner howner⟩

theorem exists_imports (h : decode file offset effort path dosHeader? = .ok m) :
    ∃ imports, m.imports = .ok imports := by
  unfold imports
  refine Except.exists_bind_ok (Except.exists_mapM_ok ?_) fun _ => ⟨_, rfl⟩
  rintro ⟨records, page⟩ hpage
  obtain ⟨hfirst, hlast, -⟩ := List.mem_zipIdx hpage
  rw [length_fixups_of_decode h] at hlast
  obtain ⟨_, address, -, haddress⟩ := exists_pageAddress h hfirst (by omega)
  exact Except.exists_bind_ok ⟨address, haddress⟩ fun _ => ⟨_, rfl⟩

/-- A decoded module answers every question. -/
theorem answers_of_decode (h : decode file offset effort path dosHeader? = .ok m) : m.Answers := by
  refine ⟨fun p hfirst hlast => ?_, exists_imports h, fun e => entry_eq_error_iff⟩
  obtain ⟨records, hrecords⟩ : ∃ records, m.pageRecords p = .ok records :=
    exists_ofPage (length_fixups_of_decode h) hfirst hlast
  obtain ⟨data, hdata⟩ : ∃ data, m.pageData p = .ok data :=
    exists_ofPage (consistent_of_decode h).stored hfirst hlast
  obtain ⟨owner, address, howner, haddress⟩ := exists_pageAddress h hfirst hlast
  have hwell := wellFormed_of_decode h (List.mem_of_getElem? (ofPage_eq_ok_iff.mp hrecords).2.2)
  obtain ⟨outcomes, houtcomes, hfollows⟩ := exists_chains hdata hrecords hwell
  exact ⟨records, data, owner, address, outcomes, hrecords, hdata, howner, haddress,
    fun r hr => (hwell r hr).answers, houtcomes, hfollows⟩

end Decoded

end ModuleImage

end LinearExecutable
