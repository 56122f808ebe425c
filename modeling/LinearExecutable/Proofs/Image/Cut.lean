import LinearExecutable.Image.Assembly
import LinearExecutable.Proofs.Bytes.Cut
import LinearExecutable.Proofs.Fixup.Locality
import LinearExecutable.Proofs.Header
import LinearExecutable.Proofs.Image.RoundTrip
import LinearExecutable.Proofs.Tables

/-!
# Modules in files that end early

No stage of decoding looks past the bytes that it is given without being refused, so a file that is
cut off somewhere decodes to the same module as the whole file, or is refused for being too short.
-/

namespace LinearExecutable

open Fixup (Effort PageFixups PageRange)

section Stages

variable {cut whole : Source}

/-! ## 1. Header -/

-- A signature that lies inside the cut source is the same in the whole one.
theorem signatureAt_cut (h : cut.Cuts whole) {offset : Int} (hnonneg : 0 ≤ offset)
    (hroom : offset + 2 ≤ cut.size) : cut.signatureAt offset = whole.signatureAt offset := by
  obtain ⟨bytes, hlen, hheld⟩ := Source.exists_holds 2 hnonneg hroom
  rw [Source.signatureAt_eq hheld hlen, Source.signatureAt_eq (h.holds hheld) hlen]

theorem agree_readOrder (h : cut.Cuts whole) (offset : Int) :
    Agree Eq (Header.readOrder cut offset) (Header.readOrder whole offset) :=
  (Source.agree_unpack h _ _).bind_eq fun _ _ => agree_refl _

theorem agree_readWords (h : cut.Cuts whole) (signature : Signature) (offset : Int) :
    Agree Eq (Header.readWords cut signature offset) (Header.readWords whole signature offset) := by
  apply (Source.agree_unpack h _ _).bind_eq
  intro words _
  rw [h.order]
  exact agree_refl _

-- In a smaller file, at least as many fields point past the end.
theorem pastEnd?_cases (base : Int) {small large : Nat} (hsize : small ≤ large)
    (fields : List (String × Nat)) :
    Header.pastEnd? base small fields = Header.pastEnd? base large fields ∨
      ∃ field value, Header.pastEnd? base small fields = some (.pastEnd field value) := by
  induction fields with
  | nil => exact .inl rfl
  | cons field fields ih =>
    obtain ⟨name, value⟩ := field
    by_cases hfield : value ≠ 0 ∧ (small : Int) < base + value
    · exact .inr ⟨name, value, by rw [Header.pastEnd?_cons, if_pos hfield]⟩
    · have hlarge : ¬(value ≠ 0 ∧ (large : Int) < base + value) := fun ⟨hvalue, hpast⟩ =>
        hfield ⟨hvalue, by omega⟩
      rw [Header.pastEnd?_cons, Header.pastEnd?_cons, if_neg hfield, if_neg hlarge]
      exact ih

-- A header is judged alike in a smaller file, or points past its end.
theorem fault?_cases (header : Header) {small large : Nat} (hsize : small ≤ large) (offset : Int) :
    header.fault? small offset = header.fault? large offset ∨
      ∃ field value, header.fault? small offset = some (.pastEnd field value) := by
  unfold Header.fault?
  cases header.pageSizeFault? with
  | some fault => exact .inl rfl
  | none =>
    cases header.shiftFault? with
    | some fault => exact .inl rfl
    | none =>
      rcases pastEnd?_cases offset hsize header.relativeOffsets with hrel | ⟨field, value, hrel⟩
      · rcases pastEnd?_cases 0 hsize header.fileOffsets with hfile | ⟨field, value, hfile⟩
        · exact .inl (by rw [hrel, hfile])
        · rw [← hrel, hfile]
          cases hfault : Header.pastEnd? offset small header.relativeOffsets with
          | some fault => exact .inl rfl
          | none => exact .inr ⟨field, value, rfl⟩
      · exact .inr ⟨field, value, by rw [hrel]; rfl⟩

theorem agree_readHeader (h : cut.Cuts whole) (offset : Int) :
    Agree Eq (Header.read cut offset) (Header.read whole offset) := by
  apply (Source.agree_require h _ _).bind_eq
  intro _ hroom
  obtain ⟨hnonneg, -, hle⟩ := Source.require_eq_ok_iff.mp hroom
  have hheader : (Header.size : Int) = 0xB0 := rfl
  rw [signatureAt_cut h hnonneg (by omega)]
  split
  · exact .error _
  · rename_i signature _
    apply (agree_readOrder h offset).bind_eq
    intro order _
    apply (agree_readWords (h.withOrder order) signature offset).bind_eq
    intro header _
    rcases fault?_cases header h.size_le offset with hsame | ⟨field, value, hshort⟩
    · rw [hsame]
      exact agree_refl _
    · rw [hshort]
      exact .short trivial

/-! ## 2. Object table and page table -/

theorem agree_readObjects (h : cut.Cuts whole) (offset count : Int) :
    Agree Eq (ObjectEntry.readTable cut offset count) (ObjectEntry.readTable whole offset count) :=
  (Source.agree_unpackMany h _ _ _).bind_eq fun _ _ => agree_refl _

theorem agree_readPages (h : cut.Cuts whole) (offset count : Int) (form : PageForm)
    (pageSize lastPageSize : Int) :
    Agree Eq (PageEntry.readTable cut offset count form pageSize lastPageSize)
      (PageEntry.readTable whole offset count form pageSize lastPageSize) := by
  unfold PageEntry.readTable
  rw [h.order]
  exact (Source.agree_unpackMany (h.withOrder _) _ _ _).bind_eq fun _ _ => agree_refl _

/-- The same tables, with the rest of the module read from another source. -/
def Tables.within (t : Tables) (source : Source) : Tables :=
  { t with source }

/-- Tables of a cut file, and those of the whole one. -/
def Tables.Cuts (t t' : Tables) : Prop :=
  t.source.Cuts t'.source ∧ t' = t.within t'.source

theorem agree_readTables (h : cut.Cuts whole) (offset : Int) :
    Agree Tables.Cuts (Tables.read cut offset) (Tables.read whole offset) := by
  refine (agree_readHeader h offset).bind_eq fun (header, _) _ => ?_
  have hsource := h.withOrder header.order
  apply (agree_refl _).bind_eq
  intro objectTable _
  refine (agree_readObjects hsource _ _).bind_eq fun (objects, _) _ => ?_
  apply (agree_refl _).bind_eq
  intro pages _
  refine (agree_readPages hsource _ _ _ _ _).bind_eq fun (pageTable, _) _ => ?_
  exact .ok ⟨hsource, rfl⟩

/-! ## 3. Fixups -/

theorem agree_readPageTable (h : cut.Cuts whole) (offset pages : Int) :
    Agree Eq (Fixup.readPageTable cut offset pages) (Fixup.readPageTable whole offset pages) :=
  (Source.agree_unpackMany h _ _ _).bind_eq fun _ _ => agree_refl _

-- The records of a page are the same, or their bytes are not all there.
theorem decodeRange_cut (h : cut.Cuts whole) (offset length page : Int) :
    Fixup.decodeRange cut offset length page = Fixup.decodeRange whole offset length page ∨
      ∃ cause, Fixup.decodeRange cut offset length page = ⟨[], some (.truncated cause)⟩ := by
  by_cases hlength : length < 0
  · exact .inl (by unfold Fixup.decodeRange; rw [if_pos hlength, if_pos hlength])
  · rcases Source.require_cases cut offset length with hok | hshort
    · obtain ⟨hnonneg, -, hle⟩ := Source.require_eq_ok_iff.mp hok
      have hroom : offset + length.toNat ≤ cut.size := by omega
      obtain ⟨bytes, hlen, hheld⟩ := Source.exists_holds length.toNat hnonneg hroom
      -- both sources hold the page at one place, so even its failures are the same
      have hmoved := Fixup.decodeRange_moved page h.order.symm hheld (h.holds hheld)
      rw [show (bytes.length : Int) = length by omega, Int.sub_self, Fixup.Decoded.shifted_zero]
        at hmoved
      exact .inl hmoved.symm
    · exact .inr ⟨_, by unfold Fixup.decodeRange; rw [if_neg hlength, hshort]⟩

theorem agree_decodePage (h : cut.Cuts whole) (bestEffort : Bool) (range : PageRange) :
    Agree Eq (Fixup.decodePage cut bestEffort range) (Fixup.decodePage whole bestEffort range) := by
  unfold Fixup.decodePage
  rcases decodeRange_cut h range.offset range.length range.page with hsame | ⟨cause, hshort⟩
  · rw [hsame]
    exact agree_refl _
  · rw [hshort]
    exact .short trivial

theorem agree_pageOutcomes (h : cut.Cuts whole) (table : Int) (offsets : List Int)
    (effort : Effort) :
    Agree Eq ((Fixup.pageOutcomes cut table offsets effort).mapM id)
      ((Fixup.pageOutcomes whole table offsets effort).mapM id) := by
  unfold Fixup.pageOutcomes
  rw [Pool.map_eq, Pool.map_eq, List.mapM_map, List.mapM_map]
  exact agree_mapM (fun range => agree_decodePage h _ range) _

theorem agree_fixups (t : Tables) (h : t.source.Cuts whole) (effort : Effort) :
    Agree Eq (t.fixups effort) ((t.within whole).fixups effort) := by
  have htable : Agree Eq t.fixupPageTable? (t.within whole).fixupPageTable? := by
    rw [Tables.fixupPageTable?, Tables.fixupPageTable?]
    by_cases habsent : t.header.fixupPageTable = 0
    · rw [if_pos habsent, if_pos (show (t.within whole).header.fixupPageTable = 0 from habsent)]
      exact agree_refl _
    · rw [if_neg habsent, if_neg (show (t.within whole).header.fixupPageTable ≠ 0 from habsent)]
      exact (agree_readPageTable h _ _).bind_eq fun offsets _ => agree_refl _
  refine htable.bind_eq fun offsets? _ => ?_
  cases offsets? with
  | none => exact agree_refl _
  | some offsets => exact (agree_pageOutcomes h _ _ effort).bind_eq fun _ _ => agree_refl _

/-! ## 4. Page data -/

theorem agree_pageData (t : Tables) (h : t.source.Cuts whole) :
    Agree Eq t.pageData (t.within whole).pageData := by
  apply (agree_refl _).bind_eq
  intro _ _
  refine agree_mapM (fun page => ?_) _
  apply (agree_refl _).bind_eq
  intro position? _
  cases position? with
  | none => exact agree_refl _
  | some position => exact Source.agree_read h _ _

/-! ## 5. Names -/

theorem agree_readNames (h : cut.Cuts whole) (offset : Int) (count : Nat) :
    Agree Eq (readNames cut offset count) (readNames whole offset count) := by
  induction count generalizing offset with
  | zero => exact agree_refl _
  | succ count ih =>
    refine (Source.agree_readCounted h offset).bind_eq fun (name, next) _ => ?_
    exact (ih next).bind_eq fun _ _ => agree_refl _

theorem agree_readResidentNames (h : cut.Cuts whole) (offset : Int) :
    Agree Eq (ResidentName.readTable cut offset) (ResidentName.readTable whole offset) := by
  -- every name takes some of the bytes that are left in the cut source
  induction hleft : (cut.size - offset).toNat using Nat.strong_induction_on generalizing offset with
  | _ left ih =>
    rw [ResidentName.readTable_eq, ResidentName.readTable_eq]
    apply (Source.agree_word h 1 offset).bind_eq
    intro length _
    split
    · exact agree_refl _
    · refine (Source.agree_readCounted h offset).bind_eq fun (name, next) hread => ?_
      obtain ⟨hlt, hle⟩ := Source.lt_of_readCounted hread
      apply (Source.agree_word h 2 next).bind_eq
      intro ordinal _
      exact (ih _ (by omega) (next + 2) rfl).bind_eq fun _ _ => agree_refl _

theorem agree_importModules (t : Tables) (h : t.source.Cuts whole) :
    Agree Eq t.importModules (t.within whole).importModules :=
  (agree_refl _).bind_eq fun table _ => agree_readNames h table _

theorem agree_importProcedures (t : Tables) (h : t.source.Cuts whole) (fixups : List PageFixups) :
    Agree Eq (t.importProcedures fixups) ((t.within whole).importProcedures fixups) := by
  apply (agree_refl _).bind_eq
  intro table _
  refine agree_mapM (fun nameOffset => ?_) _
  exact (Source.agree_readCounted h _).bind_eq fun _ _ => agree_refl _

theorem agree_residentNames (t : Tables) (h : t.source.Cuts whole) :
    Agree Eq t.residentNames (t.within whole).residentNames := by
  rw [Tables.residentNames, Tables.residentNames]
  by_cases habsent : t.header.residentNameTable = 0
  · rw [if_pos habsent, if_pos (show (t.within whole).header.residentNameTable = 0 from habsent)]
    exact agree_refl _
  · rw [if_neg habsent, if_neg (show (t.within whole).header.residentNameTable ≠ 0 from habsent)]
    exact agree_readResidentNames h _

/-! ## 6. Modules -/

/-- Decoding a cut file agrees with decoding the whole one. -/
theorem agree_decode (h : cut.Cuts whole) (offset : Int) (effort : Effort) (path : String)
    (dosHeader? : Option DosHeader) :
    Agree Eq (ModuleImage.decode cut offset effort path dosHeader?)
      (ModuleImage.decode whole offset effort path dosHeader?) := by
  refine (agree_readTables h offset).bind fun t t' _ htables => ?_
  obtain ⟨hsource, hsame⟩ := htables
  rw [hsame]
  refine (agree_fixups t hsource effort).bind_eq fun (fixupPageTable, fixupPages) _ => ?_
  apply (agree_pageData t hsource).bind_eq
  intro pages _
  apply (agree_importModules t hsource).bind_eq
  intro importModules _
  apply (agree_importProcedures t hsource fixupPages).bind_eq
  intro importProcedures _
  exact (agree_residentNames t hsource).bind_eq fun residentNames _ => agree_refl _

end Stages

/-- No silent short read. Where the front of a file decodes to a module, the whole file decodes to
the same module; where the whole file does, its front gives the same module, or fails because a
window or a table lies past its end. -/
theorem ModuleImage.decode_extract (buffer : ByteArray) (order : ByteOrder) (k : Nat)
    (offset : Int) (effort : Effort) (path : String) (dosHeader? : Option DosHeader) :
    (∀ m, decode ⟨buffer.extract 0 k, order⟩ offset effort path dosHeader? = .ok m →
      decode ⟨buffer, order⟩ offset effort path dosHeader? = .ok m) ∧
    ∀ m, decode ⟨buffer, order⟩ offset effort path dosHeader? = .ok m →
      decode ⟨buffer.extract 0 k, order⟩ offset effort path dosHeader? = .ok m ∨
      (∃ cause, decode ⟨buffer.extract 0 k, order⟩ offset effort path dosHeader? =
        .error (.truncated cause)) ∨
      ∃ field value, decode ⟨buffer.extract 0 k, order⟩ offset effort path dosHeader? =
        .error (.format (.pastEnd field value)) := by
  have hagree := agree_decode (Source.cuts_extract buffer order k) offset effort path dosHeader?
  refine ⟨fun m hcut => hagree.eq_of_ok hcut, fun m hwhole => ?_⟩
  rcases hagree.eq_or_short hwhole with hsame | ⟨e, he, hshort⟩
  · exact .inl hsame
  · rw [he]
    refine .inr ?_
    cases e with
    | truncated cause => exact .inl ⟨cause, rfl⟩
    | format fault =>
      cases fault with
      | pastEnd field value => exact .inr ⟨field, value, rfl⟩
      | _ => exact hshort.elim
    | _ => exact hshort.elim

/-- Bytes behind the sample do not change what it decodes to, and a part of it decodes to nothing
else. -/
theorem ModuleImage.decode_extract_sample :
    decode ⟨⟨(Blueprint.sample.file ++ [1, 2, 3]).toArray⟩, .little⟩ 3 ⟨false, none⟩ "SAMPLE.EXE"
        none = .ok sampleImage ∧
      ∀ m, decode ⟨ByteArray.extract ⟨Blueprint.sample.file.toArray⟩ 0 200, .little⟩ 3
        ⟨false, none⟩ "SAMPLE.EXE" none = .ok m → m = sampleImage := by
  constructor
  · apply (decode_extract _ _ Blueprint.sample.file.length _ _ _ _).1
    rw [Source.extract_append]
    exact decode_sampleImage
  · intro m hm
    have hwhole := (decode_extract _ _ 200 _ _ _ _).1 m hm
    have hsample := decode_sampleImage
    rw [Blueprint.source, hwhole, Except.ok.injEq] at hsample
    exact hsample

end LinearExecutable
