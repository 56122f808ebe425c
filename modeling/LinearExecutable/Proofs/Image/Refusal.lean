import LinearExecutable.Image.Assembly
import LinearExecutable.Proofs.Header
import LinearExecutable.Proofs.Image.Fixups
import LinearExecutable.Proofs.Tables

/-!
# What modules are refused with

Whatever the bytes, decoding a module ends in an image or in one of a few failures: no header, a
malformed field, a read outside of the file, tables that disagree, or a fixup record that cannot be
decoded. Each stage is shown to end in nothing else, and decoding runs the stages one after another.
-/

namespace LinearExecutable

open Fixup (Effort PageFixups PageRange)

/-! ## 1. The failures of a module -/

/-- The failures that decoding a module can end in. With best effort, records that cannot be decoded
are no failure; and no page has a negative number of fixup bytes. -/
def Error.OfModule (bestEffort : Bool) : Error → Prop
  | .noHeader (.noSignature _) | .format _ | .truncated _ => True
  | .layout fault => ∀ page, fault ≠ .negativeFixups page
  | .unsupportedFixup _ => bestEffort = false
  | _ => False

/-- Every failure of a module is one of decoding. -/
theorem Error.OfModule.isDecodeError {bestEffort : Bool} {e : Error} (h : e.OfModule bestEffort) :
    e.isDecodeError = true := by
  cases e <;> first | rfl | exact h.elim

section Stages

variable {bestEffort : Bool}

theorem FailsOnly.ofModule {α : Type} {x : Except Error α} (h : FailsOnly Error.IsTruncated x) :
    FailsOnly (Error.OfModule bestEffort) x := by
  intro e he
  obtain ⟨cause, rfl⟩ := h e he
  trivial

theorem failsOnly_layout {α : Type} {fault : LayoutFault}
    (h : ∀ page, fault ≠ .negativeFixups page) :
    FailsOnly (Error.OfModule bestEffort) (.error (.layout fault) : Except Error α) :=
  failsOnly_error h

theorem failsOnly_tableOffset (header : Int) (table entries : Nat) (name : String) :
    FailsOnly (Error.OfModule bestEffort) (tableOffset header table entries name) := by
  unfold tableOffset
  split
  · exact failsOnly_layout fun _ => LayoutFault.noConfusion
  · exact failsOnly_ok _

/-! ## 2. Header -/

theorem failsOnly_orderOf (bytes words : Nat) :
    FailsOnly (Error.OfModule bestEffort) (Header.orderOf bytes words) := by
  unfold Header.orderOf
  split
  · exact failsOnly_error trivial
  · split
    · exact failsOnly_error trivial
    · exact failsOnly_ok _

theorem failsOnly_readOrder (source : Source) (offset : Int) :
    FailsOnly (Error.OfModule bestEffort) (Header.readOrder source offset) := by
  apply (source.failsOnly_unpack _ _).ofModule.bind
  intro values hread
  obtain ⟨ns, hlen, -, rfl⟩ := Layout.fits_unsigned_iff.mp (Source.unpack_eq_ok_iff.mp hread).1
  obtain ⟨bytes, words, rfl⟩ := List.length_eq_two.mp hlen
  exact failsOnly_orderOf bytes words

theorem failsOnly_readWords (source : Source) (signature : Signature) (offset : Int) :
    FailsOnly (Error.OfModule bestEffort) (Header.readWords source signature offset) := by
  apply (source.failsOnly_unpack _ _).ofModule.bind
  intro values hread
  obtain ⟨words, hlen, rfl⟩ := Header.exists_words (Source.unpack_eq_ok_iff.mp hread).1
  obtain ⟨header, hheader⟩ := Header.exists_ofWords? signature source.order hlen
  rw [Value.mapM_nat?, Option.bind_some, hheader]
  exact failsOnly_ok header

theorem failsOnly_readHeader (source : Source) (offset : Int) :
    FailsOnly (Error.OfModule bestEffort) (Header.read source offset) := by
  apply (source.failsOnly_require _ _).ofModule.bind
  intro _ _
  split
  · exact failsOnly_error trivial
  · rename_i signature _
    apply (failsOnly_readOrder source offset).bind
    intro order _
    apply (failsOnly_readWords (source.withOrder order) signature offset).bind
    intro header _
    split
    · exact failsOnly_error trivial
    · exact failsOnly_ok _

/-! ## 3. Object table and page table -/

-- The values of an entry are always those of an object.
theorem exists_object {values : List Value} (number : Nat)
    (h : ObjectEntry.layout.Fits values) : ∃ o, ObjectEntry.ofValues? number values = some o := by
  obtain ⟨words, hlen, -, rfl⟩ := Layout.fits_unsigned_iff.mp h
  iterate 6
    obtain _ | ⟨word, words⟩ := words
    · simp at hlen
  obtain rfl : words = [] := by simpa using hlen
  exact ⟨_, rfl⟩

theorem failsOnly_readObjects (source : Source) (offset : Int) (count : Nat) :
    FailsOnly (Error.OfModule bestEffort) (ObjectEntry.readTable source offset count) := by
  have hpos : 0 < ObjectEntry.layout.size := by decide
  apply (source.failsOnly_unpackMany hpos offset count).ofModule.bind
  intro records hread
  obtain ⟨-, hfits, -⟩ := (Source.unpackMany_eq_ok_iff hpos).mp hread
  obtain ⟨objects, hobjects⟩ :
      ∃ objects, ((records.zipIdx 1).mapM fun x => ObjectEntry.ofValues? x.2 x.1) = some objects :=
    Option.exists_mapM_eq_some fun x hx =>
      exists_object x.2 (hfits x.1 (List.fst_mem_of_mem_zipIdx hx))
  split
  · exact failsOnly_ok _
  · rename_i hnone
    cases hnone.symm.trans hobjects

theorem failsOnly_kindOf (number code : Nat) :
    FailsOnly (Error.OfModule bestEffort) (PageEntry.kindOf number code) := by
  unfold PageEntry.kindOf
  split
  · exact failsOnly_ok _
  · exact failsOnly_error trivial

theorem failsOnly_readPages (source : Source) (offset : Int) (count : Nat) (form : PageForm)
    (pageSize lastPageSize : Int) :
    FailsOnly (Error.OfModule bestEffort)
      (PageEntry.readTable source offset count form pageSize lastPageSize) := by
  have hpos : 0 < (PageEntry.layout form).size := by cases form <;> decide
  apply (Source.failsOnly_unpackMany _ hpos offset count).ofModule.bind
  intro records hread
  obtain ⟨-, hfits, -⟩ := (Source.unpackMany_eq_ok_iff hpos).mp hread
  obtain ⟨stored, hstored⟩ := Option.exists_mapM_eq_some fun r hr =>
    PageEntry.exists_stored (hfits r hr)
  have hkinds : FailsOnly (Error.OfModule bestEffort)
      ((stored.zipIdx 1).mapM fun x => PageEntry.kindOf x.2 x.1.code) :=
    failsOnly_mapM fun _ _ => failsOnly_kindOf _ _
  rw [hstored]
  exact hkinds.bind fun _ _ => failsOnly_ok _

theorem failsOnly_readTables (file : Source) (offset : Int) :
    FailsOnly (Error.OfModule bestEffort) (Tables.read file offset) := by
  refine (failsOnly_readHeader file offset).bind fun (header, _) _ => ?_
  apply (failsOnly_tableOffset _ _ _ _).bind
  intro objectTable _
  refine (failsOnly_readObjects _ _ _).bind fun (objects, _) _ => ?_
  apply (failsOnly_tableOffset _ _ _ _).bind
  intro pages _
  refine (failsOnly_readPages _ _ _ _ _ _).bind fun (pageTable, _) _ => ?_
  exact failsOnly_ok _

/-! ## 4. Fixups -/

theorem descending?_ne_negativeFixups {first : Nat} {offsets : List Nat} {fault : LayoutFault}
    (h : Fixup.descending? first offsets = some fault) (page : Int) :
    fault ≠ .negativeFixups page := by
  fun_induction Fixup.descending? first offsets with
  | case1 =>
    cases h
    exact LayoutFault.noConfusion
  | case2 first start stop rest _ ih => exact ih h
  | case3 => contradiction

theorem failsOnly_readPageTable (source : Source) (offset : Int) (pages : Nat) :
    FailsOnly (Error.OfModule bestEffort) (Fixup.readPageTable source offset pages) := by
  have hpos : 0 < Layout.size [.unsigned 1 4] := by decide
  have hcount : (pages : Int) + 1 = (pages + 1 : Nat) := rfl
  rw [Fixup.readPageTable, hcount]
  apply (source.failsOnly_unpackMany hpos offset (pages + 1)).ofModule.bind
  intro records hread
  obtain ⟨-, hfits, -⟩ := (Source.unpackMany_eq_ok_iff hpos).mp hread
  obtain ⟨words, -, rfl⟩ := Fixup.fits_words_iff.mp hfits
  rw [← List.flatMap_def, ← List.map_eq_flatMap, Value.mapM_nat?]
  dsimp only
  split
  · rename_i fault hfault
    exact failsOnly_layout (descending?_ne_negativeFixups hfault)
  · exact failsOnly_ok _

theorem failsOnly_fixupPageTable? (t : Tables) :
    FailsOnly (Error.OfModule bestEffort) t.fixupPageTable? := by
  unfold Tables.fixupPageTable?
  split
  · exact failsOnly_ok none
  · apply (failsOnly_readPageTable _ _ _).bind
    intro offsets hread
    obtain ⟨hlen, -⟩ := Fixup.readPageTable_eq_ok_iff.mp hread
    -- one offset more than there are pages, so there is a last one
    split
    · rename_i hlast
      rw [List.getLast?_eq_none_iff.mp hlast] at hlen
      contradiction
    · split
      · exact failsOnly_layout fun _ => LayoutFault.noConfusion
      · exact failsOnly_ok _

theorem failsOnly_decodePage (source : Source) {range : PageRange} (h : 0 ≤ range.length) :
    FailsOnly (Error.OfModule bestEffort) (Fixup.decodePage source bestEffort range) := by
  unfold Fixup.decodePage Fixup.Decoded.keep
  split
  · exact failsOnly_ok _
  · split
    · exact failsOnly_ok _
    · rename_i hstrict
      exact failsOnly_error (Bool.eq_false_iff.mpr hstrict)
  · rename_i e hother hfailure
    rcases Fixup.failure_of_decodeRange h hfailure with ⟨cause, rfl⟩ | ⟨fixup, rfl⟩
    · exact failsOnly_error trivial
    · exact absurd rfl (hother fixup)

theorem failsOnly_fixups (t : Tables) (effort : Effort) :
    FailsOnly (Error.OfModule effort.bestEffort) (t.fixups effort) := by
  apply (failsOnly_fixupPageTable? t).bind
  intro offsets? htable
  cases offsets? with
  | none => exact failsOnly_ok _
  | some offsets =>
    have hsorted := (Tables.of_fixupPageTable? htable).2.2
    have hpages : FailsOnly (Error.OfModule effort.bestEffort)
        ((t.fixupOutcomes effort offsets).mapM id) := by
      rw [Tables.fixupOutcomes, Fixup.mapM_pageOutcomes]
      exact failsOnly_mapM fun range hrange =>
        failsOnly_decodePage _ (Fixup.length_nonneg_of_mem_pageRanges hsorted hrange)
    exact hpages.bind fun _ _ => failsOnly_ok _

/-! ## 5. Page data -/

theorem ownershipFault?_ne_negativeFixups {pages expected : Nat} {objects : List ObjectEntry}
    {fault : LayoutFault} (h : Tables.ownershipFault? pages expected objects = some fault)
    (page : Int) : fault ≠ .negativeFixups page := by
  fun_induction Tables.ownershipFault? pages expected objects with
  | case1 => contradiction
  | case2 | case4 | case5 =>
    cases h
    exact LayoutFault.noConfusion
  | case3 expected o rest _ ih => exact ih h
  | case6 expected o rest _ _ _ _ ih => exact ih h

theorem failsOnly_checkOwnership (objects : List ObjectEntry) (pageTable : List PageEntry) :
    FailsOnly (Error.OfModule bestEffort) (Tables.checkOwnership objects pageTable) := by
  unfold Tables.checkOwnership
  split
  · rename_i fault hfault
    exact failsOnly_layout (ownershipFault?_ne_negativeFixups hfault)
  · exact failsOnly_ok ()

theorem failsOnly_pagePosition? (header : Header) (page : PageEntry) :
    FailsOnly (Error.OfModule bestEffort) (Tables.pagePosition? header page) := by
  unfold Tables.pagePosition?
  split
  · exact failsOnly_ok none
  · split
    · split
      · exact failsOnly_layout fun _ => LayoutFault.noConfusion
      · exact failsOnly_ok _
    · exact failsOnly_ok _

theorem failsOnly_pageData (t : Tables) : FailsOnly (Error.OfModule bestEffort) t.pageData := by
  apply (failsOnly_checkOwnership _ _).bind
  intro _ _
  apply failsOnly_mapM
  intro page _
  apply (failsOnly_pagePosition? _ _).bind
  intro position? _
  cases position? with
  | none => exact failsOnly_ok []
  | some position => exact (t.source.failsOnly_read position page.size).ofModule

/-! ## 6. Names -/

theorem failsOnly_readNames (source : Source) (offset : Int) (count : Nat) :
    FailsOnly Error.IsTruncated (readNames source offset count) := by
  induction count generalizing offset with
  | zero => exact failsOnly_ok []
  | succ count ih =>
    refine (source.failsOnly_readCounted offset).bind fun (name, next) _ => ?_
    exact (ih next).bind fun _ _ => failsOnly_ok _

theorem failsOnly_readResidentNames (source : Source) (offset : Int) :
    FailsOnly Error.IsTruncated (ResidentName.readTable source offset) := by
  -- every name takes some of the bytes that are left
  induction hleft : (source.size - offset).toNat using Nat.strong_induction_on
    generalizing offset with
  | _ left ih =>
    rw [ResidentName.readTable_eq]
    apply (source.failsOnly_word 1 offset).bind
    intro length _
    split
    · exact failsOnly_ok []
    · refine (source.failsOnly_readCounted offset).bind fun (name, next) hread => ?_
      obtain ⟨hlt, hle⟩ := Source.lt_of_readCounted hread
      apply (source.failsOnly_word 2 next).bind
      intro ordinal _
      exact (ih _ (by omega) (next + 2) rfl).bind fun _ _ => failsOnly_ok _

theorem failsOnly_importModules (t : Tables) :
    FailsOnly (Error.OfModule bestEffort) t.importModules :=
  (failsOnly_tableOffset _ _ _ _).bind fun table _ =>
    (failsOnly_readNames t.source table _).ofModule

theorem failsOnly_importProcedures (t : Tables) (fixups : List PageFixups) :
    FailsOnly (Error.OfModule bestEffort) (t.importProcedures fixups) := by
  apply (failsOnly_tableOffset _ _ _ _).bind
  intro table _
  apply failsOnly_mapM
  intro nameOffset _
  exact (t.source.failsOnly_readCounted _).ofModule.bind fun _ _ => failsOnly_ok _

theorem failsOnly_residentNames (t : Tables) :
    FailsOnly (Error.OfModule bestEffort) t.residentNames := by
  unfold Tables.residentNames
  split
  · exact failsOnly_ok []
  · exact (failsOnly_readResidentNames _ _).ofModule

/-! ## 7. Modules -/

/-- The stages behind the fixups; how much effort was made for those does not matter to them. -/
def Tables.complete (t : Tables) (offset : Int) (path : String) (dosHeader? : Option DosHeader)
    (fixupPageTable : List Nat) (fixupPages : List PageFixups) : Except Error ModuleImage := do
  let pages ← t.pageData
  let importModules ← t.importModules
  let importProcedures ← t.importProcedures fixupPages
  let residentNames ← t.residentNames
  return {
    path, header := t.header, headerOffset := offset, dosHeader?
    objects := t.objects, pageTable := t.pageTable, fixupPageTable, fixupPages, pages
    importModules, importProcedures, residentNames }

theorem ModuleImage.decode_eq (file : Source) (offset : Int) (effort : Effort) (path : String)
    (dosHeader? : Option DosHeader) :
    decode file offset effort path dosHeader? = (do
      let t ← Tables.read file offset
      let (fixupPageTable, fixupPages) ← t.fixups effort
      t.complete offset path dosHeader? fixupPageTable fixupPages) :=
  rfl

theorem failsOnly_complete (t : Tables) (offset : Int) (path : String)
    (dosHeader? : Option DosHeader) (fixupPageTable : List Nat) (fixupPages : List PageFixups) :
    FailsOnly (Error.OfModule bestEffort)
      (t.complete offset path dosHeader? fixupPageTable fixupPages) := by
  apply (failsOnly_pageData t).bind
  intro pages _
  apply (failsOnly_importModules t).bind
  intro importModules _
  apply (failsOnly_importProcedures t fixupPages).bind
  intro importProcedures _
  exact (failsOnly_residentNames t).bind fun _ _ => failsOnly_ok _

end Stages

/-- Decoding ends for all bytes, at any offset, in either order and with any effort: in an image or
in a failure that says what is wrong with the file. -/
theorem ModuleImage.decode_failures (file : Source) (offset : Int) (effort : Effort)
    (path : String) (dosHeader? : Option DosHeader) :
    (∃ m, decode file offset effort path dosHeader? = .ok m) ∨
      ∃ e, decode file offset effort path dosHeader? = .error e ∧
        e.OfModule effort.bestEffort := by
  have hfails : FailsOnly (Error.OfModule effort.bestEffort)
      (decode file offset effort path dosHeader?) := by
    rw [decode_eq]
    apply (failsOnly_readTables file offset).bind
    intro t _
    refine (failsOnly_fixups t effort).bind fun (fixupPageTable, fixupPages) _ => ?_
    exact failsOnly_complete t offset path dosHeader? fixupPageTable fixupPages
  cases h : decode file offset effort path dosHeader? with
  | ok m => exact .inl ⟨m, rfl⟩
  | error e => exact .inr ⟨e, rfl, hfails e h⟩

end LinearExecutable
