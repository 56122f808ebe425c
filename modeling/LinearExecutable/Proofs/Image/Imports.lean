import LinearExecutable.Proofs.Image.Answers

/-!
# Imports

The imports of a module are the places that its fixups patch with symbols of other modules: one for
each source offset of each record that imports, in the order of pages, records and offsets. Every
name that a record refers to was read while the module was decoded, so no import is left without its
name.
-/

namespace LinearExecutable

open Fixup (Effort PageFixups Record Target)

/-! ## 1. What is imported where -/

/-- A place that a record patches with a symbol of another module. -/
structure ImportSite where
  page : Nat
  target : Target
  /-- Where in the page; negative if the place started on the page before. -/
  place : Int
  deriving DecidableEq, Repr

/-- The places that a record of a page patches with a symbol of another module. -/
def ImportSite.ofRecord (page : Nat) (r : Record) : List ImportSite :=
  match r.target with
  | .byOrdinal _ _ | .byName _ _ => r.offsets.map fun place => ⟨page, r.target, place⟩
  | .internal _ _ | .entry _ _ => []

namespace ModuleImage

/-- All places that are patched with symbols of other modules, in the order of pages, records and
source offsets. -/
def importSites (m : ModuleImage) : List ImportSite :=
  (m.fixups.zipIdx 1).flatMap fun (records, page) => records.flatMap (ImportSite.ofRecord page)

/-- The page is loaded at an address: as many pages behind the base of the one object that owns it
as it stands behind the first page of that. -/
def LoadedAt (m : ModuleImage) (page : Nat) (address : Int) : Prop :=
  ∃ o ∈ m.objects, page ∈ o.pageNumbers ∧
    (∀ other ∈ m.objects, page ∈ other.pageNumbers → other = o) ∧
    address = o.base + (page - o.firstPage) * m.header.pageSize

/-- The name of the module with a number: modules are counted from one, and a number that none of
them has is shown as it is. -/
structure IsLibrary (m : ModuleImage) (number : Int) (name : String) : Prop where
  named : ∀ i : Nat, number = i + 1 → i < m.importModules.length → m.importModules[i]? = some name
  unnamed : number < 1 ∨ m.importModules.length < number → name = s!"#{number}"

/-- The symbol that a target names: by its number, without a name, or by the string that stands at a
place of the import procedure table, with the number zero. -/
inductive Names (file : Source) (m : ModuleImage) : Target → Int → String → Prop
  | byOrdinal (library ordinal : Int) : Names file m (.byOrdinal library ordinal) ordinal ""
  | byName (library : Int) {nameOffset next : Int} {name : List UInt8}
      (h : file.readCounted (m.headerOffset + m.header.importProcedureTable + nameOffset) =
        .ok (name, next)) :
      Names file m (.byName library nameOffset) 0 (nameText name)

/-- What an import says about the place that it stands for. -/
structure Describes (file : Source) (m : ModuleImage) (site : ImportSite) (i : Import) : Prop where
  address : ∃ page, m.LoadedAt site.page page ∧ i.address = page + site.place
  library : m.IsLibrary site.target.first i.library
  symbol : m.Names file site.target i.ordinal i.name

/-! ## 2. Names -/

theorem isLibrary_importModule (m : ModuleImage) (number : Int) :
    m.IsLibrary number (m.importModule number) := by
  constructor
  · rintro i rfl hlt
    have hplace : ((i : Int) + 1 - 1).toNat = i := by omega
    rw [importModule, if_pos (by omega), hplace, List.getElem?_eq_getElem hlt]
    rfl
  · intro hout
    rw [importModule, if_neg (by omega)]

end ModuleImage

-- A key of a list of pairs is found there.
theorem exists_lookup {α β : Type} [BEq α] [LawfulBEq α] {pairs : List (α × β)} {a : α} {b : β}
    (h : (a, b) ∈ pairs) : ∃ found, pairs.lookup a = some found ∧ (a, found) ∈ pairs := by
  have hsome : (pairs.lookup a).isSome := List.lookup_isSome_iff.mpr ⟨_, h, BEq.rfl⟩
  obtain ⟨found, hfound⟩ := Option.isSome_iff_exists.mp hsome
  obtain ⟨before, after, rfl, -⟩ := List.lookup_eq_some_iff.mp hfound
  exact ⟨found, hfound, List.mem_append_right _ List.mem_cons_self⟩

-- The pieces of two lists that go together make up lists that go together.
theorem forall₂_flatMap {α β γ : Type} {related : β → γ → Prop} {f : α → List β}
    {g : α → List γ} {xs : List α} (h : ∀ x ∈ xs, List.Forall₂ related (f x) (g x)) :
    List.Forall₂ related (xs.flatMap f) (xs.flatMap g) := by
  rw [List.flatMap_def, List.flatMap_def]
  apply List.rel_flatten
  rw [List.forall₂_map_left_iff, List.forall₂_map_right_iff, List.forall₂_same]
  exact h

/-- Every name that some record refers to is among those that are read, at its place. -/
theorem Tables.exists_procedure {t : Tables} {fixups : List PageFixups}
    {procedures : List (Int × String)} (h : t.importProcedures fixups = .ok procedures)
    {nameOffset : Int} (hneeded : nameOffset ∈ nameOffsets fixups) :
    ∃ name next, procedures.lookup nameOffset = some (nameText name) ∧
      t.source.readCounted (t.offset + t.header.importProcedureTable + nameOffset) =
        .ok (name, next) := by
  obtain ⟨table, htable, hread⟩ := Except.bind_eq_ok_iff.mp h
  obtain rfl := (tableOffset_eq_ok_iff.mp htable).2
  obtain ⟨i, hi⟩ := List.mem_iff_getElem?.mp hneeded
  obtain ⟨pair, hpair, hfirst⟩ := Except.getElem?_of_mapM hread hi
  obtain ⟨⟨name, next⟩, -, hsame⟩ := Except.bind_eq_ok_iff.mp hfirst
  cases hsame
  obtain ⟨found, hfound, hmem⟩ := exists_lookup (List.mem_of_getElem? hpair)
  obtain ⟨nameOffset', -, hother⟩ := exists_left_of_forall₂ (Except.mapM_eq_ok_iff.mp hread) hmem
  obtain ⟨⟨name', next'⟩, hcounted, hsame⟩ := Except.bind_eq_ok_iff.mp hother
  cases hsame
  exact ⟨name', next', hfound, hcounted⟩

/-! ## 3. The imports of a module -/

namespace ModuleImage

section Imports

variable {file : Source} {m : ModuleImage} {page : Nat} {address : Int}

/-- A record gives one import for each of its places, or none. -/
theorem describes_recordImports (hpage : m.LoadedAt page address) {r : Record}
    (hname : ∀ library nameOffset, r.target = .byName library nameOffset →
      m.Names file r.target 0 (m.procedureName nameOffset)) :
    List.Forall₂ (m.Describes file) (ImportSite.ofRecord page r) (m.recordImports address r) := by
  rw [ImportSite.ofRecord, recordImports, importedSymbol?]
  cases htarget : r.target with
  | internal _ _ | entry _ _ => exact .nil
  | byOrdinal library ordinal =>
    rw [List.forall₂_map_left_iff, List.forall₂_map_right_iff, List.forall₂_same]
    exact fun place _ =>
      ⟨⟨address, hpage, rfl⟩, m.isLibrary_importModule library, .byOrdinal library ordinal⟩
  | byName library nameOffset =>
    rw [List.forall₂_map_left_iff, List.forall₂_map_right_iff, List.forall₂_same]
    exact fun place _ => ⟨⟨address, hpage, rfl⟩, m.isLibrary_importModule library,
      htarget ▸ hname library nameOffset htarget⟩

end Imports

section Decoded

variable {file : Source} {offset : Int} {effort : Effort} {path : String}
  {dosHeader? : Option DosHeader} {m : ModuleImage}

/-- Every name that a record of the module refers to was read. -/
theorem exists_procedure_of_decode (h : decode file offset effort path dosHeader? = .ok m)
    {records : List Record} (hrecords : records ∈ m.fixups) {r : Record} (hr : r ∈ records)
    {nameOffset : Int} (hname : r.target.nameOffset? = some nameOffset) :
    ∃ name next, m.importProcedures.lookup nameOffset = some (nameText name) ∧
      file.readCounted (m.headerOffset + m.header.importProcedureTable + nameOffset) =
        .ok (name, next) := by
  obtain ⟨t, htables, hm, -, -⟩ := decode_eq_ok_iff.mp h
  obtain ⟨kept, hkept, rfl⟩ := List.mem_map.mp hrecords
  obtain ⟨name, next, hlookup, hread⟩ := Tables.exists_procedure hm.importProcedures
    (Tables.mem_nameOffsets.mpr ⟨kept, hkept, r, hr, hname⟩)
  -- the order of the module does not matter to a counted string
  rw [(Tables.read_eq_ok_iff.mp htables).2.1, ← hm.header, ← hm.headerOffset,
    Source.readCounted_eq_ok_iff] at hread
  exact ⟨name, next, hlookup, Source.readCounted_eq_ok_iff.mpr hread⟩

theorem loadedAt_of_decode (h : decode file offset effort path dosHeader? = .ok m) {p : Nat}
    (hfirst : 1 ≤ p) (hlast : p ≤ m.pageTable.length) :
    ∃ address, m.pageAddress p = .ok address ∧ m.LoadedAt p address := by
  have hm := consistent_of_decode h
  obtain ⟨i, o, hi, hpage, howner⟩ := exists_pageOwner hm hfirst hlast
  refine ⟨_, pageAddress_of_owner howner, o, List.mem_of_getElem? hi, hpage, ?_, rfl⟩
  intro other hother hpage'
  obtain ⟨j, hj⟩ := List.mem_iff_getElem?.mp hother
  obtain rfl := owner_unique hm.owned hi hj hpage hpage'
  exact Option.some.inj (hj.symm.trans hi)

-- So an import by name has the name that the file has for it.
theorem names_of_decode (h : decode file offset effort path dosHeader? = .ok m)
    {records : List Record} (hrecords : records ∈ m.fixups) {r : Record} (hr : r ∈ records)
    {library nameOffset : Int} (htarget : r.target = .byName library nameOffset) :
    m.Names file r.target 0 (m.procedureName nameOffset) := by
  obtain ⟨name, next, hlookup, hread⟩ :=
    exists_procedure_of_decode h hrecords hr (by rw [htarget]; rfl)
  rw [htarget, procedureName, hlookup]
  exact .byName library hread

/-- The imports of a page can be listed: its address is known. -/
theorem exists_pageImports (h : decode file offset effort path dosHeader? = .ok m)
    {records : List Record} {page : Nat} (hmem : (records, page) ∈ m.fixups.zipIdx 1) :
    ∃ imports,
      (do
        let address ← m.pageAddress page
        return records.flatMap (m.recordImports address)) = Except.ok imports ∧
      List.Forall₂ (m.Describes file) (records.flatMap (ImportSite.ofRecord page)) imports := by
  obtain ⟨hfirst, hlast, -⟩ := List.mem_zipIdx hmem
  rw [length_fixups_of_decode h] at hlast
  obtain ⟨address, haddress, hloaded⟩ := loadedAt_of_decode h hfirst (by omega)
  have hrecords : records ∈ m.fixups := List.fst_mem_of_mem_zipIdx hmem
  refine ⟨_, by rw [haddress]; rfl, forall₂_flatMap fun r hr => ?_⟩
  exact describes_recordImports hloaded fun library nameOffset => names_of_decode h hrecords hr

/-- The imports of a module stand for the places that its records patch with symbols of other
modules, one for each, in the same order; and each tells where the place is loaded, the module, and
the symbol as the file has it. No name is missing. -/
theorem imports_of_decode (h : decode file offset effort path dosHeader? = .ok m) :
    m.headerOffset = offset ∧
      (∃ imports, m.imports = .ok imports ∧
        List.Forall₂ (m.Describes file) m.importSites imports) ∧
      ∀ records ∈ m.fixups, ∀ r ∈ records, ∀ nameOffset, r.target.nameOffset? = some nameOffset →
        ∃ name, m.importProcedures.lookup nameOffset = some name := by
  refine ⟨?_, ?_, ?_⟩
  · obtain ⟨t, htables, hm, -, -⟩ := decode_eq_ok_iff.mp h
    rw [hm.headerOffset, (Tables.read_eq_ok_iff.mp htables).1]
  · obtain ⟨perPage, hperPage, hall⟩ :=
      Except.exists_mapM_eq_ok fun x hx => exists_pageImports h hx
    refine ⟨perPage.flatten, Except.bind_eq_ok_iff.mpr ⟨perPage, hperPage, rfl⟩, ?_⟩
    rw [importSites, List.flatMap_def]
    exact List.rel_flatten (List.forall₂_map_left_iff.mpr hall)
  · intro records hrecords r hr nameOffset hname
    obtain ⟨name, -, hlookup, -⟩ := exists_procedure_of_decode h hrecords hr hname
    exact ⟨_, hlookup⟩

end Decoded

/-- The sample imports one procedure, at the start of its first page. -/
theorem imports_of_decode_sample :
    decode (Blueprint.sample.source .little) 3 ⟨false, none⟩ "SAMPLE.EXE" none = .ok sampleImage ∧
      sampleImage.imports = .ok [⟨0x10000, "DOSCALLS", 0, "ABC"⟩] ∧
      List.Forall₂ (sampleImage.Describes (Blueprint.sample.source .little))
        [⟨1, .byName 1 1, 0⟩] [⟨0x10000, "DOSCALLS", 0, "ABC"⟩] := by
  have himports : sampleImage.imports = .ok [⟨0x10000, "DOSCALLS", 0, "ABC"⟩] := by
    decide +kernel
  have hsites : sampleImage.importSites = [⟨1, .byName 1 1, 0⟩] := by decide +kernel
  obtain ⟨-, ⟨imports, hsame, hall⟩, -⟩ := imports_of_decode decode_sampleImage
  rw [himports, Except.ok.injEq] at hsame
  rw [hsites, ← hsame] at hall
  exact ⟨decode_sampleImage, himports, hall⟩

end ModuleImage

end LinearExecutable
