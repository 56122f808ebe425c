import LinearExecutable.Proofs.Image.Refusal
import LinearExecutable.Proofs.Image.RoundTrip

/-!
# Name tables and where they end

Resident names are read in rounds, one entry each, until the length at the place is zero or the
source ends. Every round takes four bytes or more, which bounds their number. The names of import
modules are counted instead, and they are read iff that many of them fit into the source.
-/

namespace LinearExecutable

/-! ## 1. Rounds of reading resident names -/

namespace ResidentName

/-- Rounds of reading resident names: while the length at the place is not zero, one more entry is
read, with the bytes of its name and its ordinal. -/
inductive Rounds (source : Source) : Int → List (List UInt8 × Nat) → Int → Prop
  | none (place : Int) : Rounds source place [] place
  | more {place behind last : Int} {length ordinal : Nat} {name : List UInt8}
    {entries : List (List UInt8 × Nat)} (hlength : source.word 1 place = .ok length)
    (hmore : length ≠ 0) (hname : source.readCounted place = .ok (name, behind))
    (hordinal : source.word 2 behind = .ok ordinal)
    (hrest : Rounds source (behind + 2) entries last) :
    Rounds source place ((name, ordinal) :: entries) last

/-- There is no byte for a length at a place, or the source ends inside the entry that starts
there. -/
def CutOff (source : Source) (place : Int) : Prop :=
  place < 0 ∨ source.size ≤ place ∨
    ∃ length, length ≠ 0 ∧ source.word 1 place = .ok length ∧ source.size < place + length + 3

/-- The bytes of entries, one behind the other. -/
def encodeAll (order : ByteOrder) (entries : List (List UInt8 × Nat)) : List UInt8 :=
  entries.flatMap fun e => encode order e.1 e.2

/-- The name and the ordinal that are shown of an entry. -/
def ofEntry (entry : List UInt8 × Nat) : ResidentName := ⟨nameText entry.1, entry.2⟩

theorem encodeAll_cons (order : ByteOrder) (name : List UInt8) (ordinal : Nat)
    (entries : List (List UInt8 × Nat)) :
    encodeAll order ((name, ordinal) :: entries) =
      countedName name ++ order.wordBytes 2 ordinal ++ encodeAll order entries := rfl

variable {source : Source} {place last : Int} {entries : List (List UInt8 × Nat)}

-- A string that is read has the length that stands in front of it.
theorem length_of_readCounted {length : Nat} {name : List UInt8} {behind : Int}
    (hlength : source.word 1 place = .ok length)
    (hname : source.readCounted place = .ok (name, behind)) :
    name.length = length ∧ behind = place + 1 + length := by
  rw [Source.readCounted, hlength, Except.bind_ok, Except.bind_eq_ok_iff] at hname
  obtain ⟨bytes, hread, h⟩ := hname
  cases h
  exact ⟨by exact_mod_cast (Source.read_eq_ok_iff.mp hread).1, rfl⟩

/-- Every round takes four bytes or more of the source, and none of them leads out of it. -/
theorem Rounds.bounds (h : Rounds source place entries last) :
    place + 4 * entries.length ≤ last ∧ (place ≤ source.size → last ≤ source.size) ∧
      (entries ≠ [] → 0 ≤ place ∧ place ≤ source.size) := by
  induction h with
  | none => simp
  | @more place behind last length ordinal name entries hlength hmore hname hordinal _ ih =>
    obtain ⟨hbytes, hwithin, -⟩ := ih
    obtain ⟨hlen, hbehind⟩ := length_of_readCounted hlength hname
    have hstart := (Source.readCounted_eq_ok_iff.mp hname).2.1.nonneg
    have hend := (Source.word_eq_ok_iff.mp hordinal).2.end_le
    rw [ByteOrder.length_wordBytes] at hend
    push_cast at hend
    rw [List.length_cons]
    exact ⟨by omega, fun _ => hwithin hend, fun _ => ⟨hstart, by omega⟩⟩

/-- There are no more rounds than a quarter of the bytes of the source. -/
theorem Rounds.length_le (h : Rounds source place entries last) :
    entries.length ≤ source.size / 4 := by
  obtain ⟨hbytes, hwithin, hinside⟩ := h.bounds
  by_cases hnone : entries = []
  · simp [hnone]
  · obtain ⟨hstart, hend⟩ := hinside hnone
    have hlast := hwithin hend
    omega

-- What rounds pass are the entries that they read.
theorem Rounds.last_eq (h : Rounds source place entries last) :
    last = place + (encodeAll source.order entries).length := by
  induction h with
  | none => simp [encodeAll]
  | more hlength _ hname _ _ ih =>
    obtain ⟨hlen, hbehind⟩ := length_of_readCounted hlength hname
    rw [encodeAll_cons, List.length_append, List.length_append, ByteOrder.length_wordBytes,
      countedName, List.length_cons]
    omega

/-- Rounds that end at a zero pass entries that the source holds, with the zero behind them. -/
theorem Rounds.holds (h : Rounds source place entries last) (hend : source.word 1 last = .ok 0) :
    (∀ e ∈ entries, IsResident e) ∧
      source.Holds place (encodeAll source.order entries ++ [0]) := by
  induction h with
  | none place =>
    have hheld := (Source.word_eq_ok_iff.mp hend).2
    rw [ByteOrder.wordBytes_one] at hheld
    exact ⟨by simp, hheld⟩
  | @more place behind last length ordinal name entries hlength hmore hname hordinal _ ih =>
    obtain ⟨hentries, hrest⟩ := ih hend
    obtain ⟨hlen, hbehind⟩ := length_of_readCounted hlength hname
    obtain ⟨hshort, hheld, -⟩ := Source.readCounted_eq_ok_iff.mp hname
    obtain ⟨hbound, hword⟩ := Source.word_eq_ok_iff.mp hordinal
    have hne : name ≠ [] := fun hempty => hmore (by rw [← hlen, hempty, List.length_nil])
    refine ⟨List.forall_mem_cons.mpr ⟨⟨hne, hshort, hbound⟩, hentries⟩, ?_⟩
    have hnext : place + (countedName name).length = behind := by
      rw [countedName, List.length_cons]
      omega
    rw [encodeAll_cons, List.append_assoc, List.append_assoc, Source.holds_append_iff, hnext,
      Source.holds_append_iff, ByteOrder.length_wordBytes]
    exact ⟨hheld, hword, hrest⟩

/-! ## 2. How reading ends -/

-- What stands at a place: the end of the table, one more entry, or less than that.
theorem exists_round (source : Source) (place : Int) :
    source.word 1 place = .ok 0 ∨
      (∃ length name behind ordinal, source.word 1 place = .ok length ∧ length ≠ 0 ∧
        source.readCounted place = .ok (name, behind) ∧ source.word 2 behind = .ok ordinal) ∨
      CutOff source place := by
  by_cases hinside : 0 ≤ place ∧ place < source.size
  · obtain ⟨bytes, hlen, hheld⟩ := source.exists_holds 1 hinside.1 (by push_cast; omega)
    obtain ⟨b, rfl⟩ := List.length_eq_one_iff.mp hlen
    have hword : source.word 1 place = .ok b.toNat := by
      rw [Source.word_eq_ok_iff, ByteOrder.wordBytes_one, UInt8.ofNat_toNat]
      exact ⟨b.toNat_lt, hheld⟩
    by_cases hzero : b.toNat = 0
    · exact .inl (hzero ▸ hword)
    · right
      by_cases hroom : place + b.toNat + 3 ≤ source.size
      · -- the name and the ordinal fit behind the length
        obtain ⟨name, hname, hnamed⟩ := source.exists_holds b.toNat
          (by omega : 0 ≤ place + 1) (by omega)
        obtain ⟨word, hwidth, hordinal⟩ := source.exists_holds 2
          (by omega : 0 ≤ place + 1 + b.toNat) (by push_cast; omega)
        have hcounted : source.Holds place (countedName name) := by
          rw [countedName, hname, UInt8.ofNat_toNat, ← List.singleton_append,
            Source.holds_append_iff]
          exact ⟨hheld, hnamed⟩
        refine .inl ⟨_, name, _, source.order.word word, hword, hzero,
          Source.readCounted_eq_ok_iff.mpr ⟨hname ▸ b.toNat_lt, hcounted, rfl⟩, ?_⟩
        rw [Source.word_eq_ok_iff, hname, ← hwidth, ByteOrder.wordBytes_word]
        exact ⟨source.order.word_lt word, hordinal⟩
      · exact .inr (.inr (.inr ⟨_, hzero, hword, by omega⟩))
  · rw [CutOff]
    omega

theorem readTable_of_zero (h : source.word 1 place = .ok 0) : readTable source place = .ok [] := by
  rw [readTable_eq, h]
  rfl

-- A table is read through a round and from behind it on.
theorem readTable_of_round {length ordinal : Nat} {name : List UInt8} {behind : Int}
    (hlength : source.word 1 place = .ok length) (hmore : length ≠ 0)
    (hname : source.readCounted place = .ok (name, behind))
    (hordinal : source.word 2 behind = .ok ordinal) :
    readTable source place =
      (readTable source (behind + 2)).map (ofEntry (name, ordinal) :: ·) := by
  rw [readTable_eq, hlength, Except.bind_ok, if_neg hmore, hname, Except.bind_ok]
  dsimp only
  rw [hordinal, Except.bind_ok]
  cases readTable source (behind + 2) <;> rfl

-- An entry that is cut off ends the reading.
theorem readTable_of_cutOff (h : CutOff source place) :
    ∃ cause, readTable source place = .error (.truncated cause) := by
  cases hread : readTable source place with
  | error e =>
    obtain ⟨cause, rfl⟩ := failsOnly_readResidentNames source place e hread
    exact ⟨cause, rfl⟩
  | ok names =>
    rw [readTable_eq, Except.bind_eq_ok_iff] at hread
    obtain ⟨length, hlength, hread⟩ := hread
    obtain ⟨-, hheld⟩ := Source.word_eq_ok_iff.mp hlength
    have hnonneg := hheld.nonneg
    have hinside := hheld.end_le
    rw [ByteOrder.length_wordBytes] at hinside
    obtain hneg | hend | ⟨length', hmore, hlength', hshort⟩ := h
    · omega
    · omega
    · obtain rfl := Except.ok.inj (hlength.symm.trans hlength')
      rw [if_neg hmore, Except.bind_eq_ok_iff] at hread
      obtain ⟨⟨name, behind⟩, hname, hread⟩ := hread
      obtain ⟨ordinal, hordinal, -⟩ := Except.bind_eq_ok_iff.mp hread
      obtain ⟨-, rfl⟩ := length_of_readCounted hlength hname
      have hwithin := (Source.word_eq_ok_iff.mp hordinal).2.end_le
      rw [ByteOrder.length_wordBytes] at hwithin
      push_cast at hwithin
      omega

/-- From any place on, rounds lead to a zero length or to an entry that is cut off, and that decides
what the table is read as. -/
theorem exists_rounds (source : Source) (place : Int) :
    ∃ entries last, Rounds source place entries last ∧
      ((source.word 1 last = .ok 0 ∧ readTable source place = .ok (entries.map ofEntry)) ∨
        (CutOff source last ∧ ∃ cause, readTable source place = .error (.truncated cause))) := by
  -- every round leaves less of the source
  induction hleft : (source.size - place).toNat using Nat.strong_induction_on
    generalizing place with
  | _ left ih =>
    obtain hzero | ⟨length, name, behind, ordinal, hlength, hmore, hname, hordinal⟩ | hcut :=
      exists_round source place
    · exact ⟨[], place, .none place, .inl ⟨hzero, readTable_of_zero hzero⟩⟩
    · have hbounds := Source.lt_of_readCounted hname
      obtain ⟨entries, last, hrounds, hends⟩ := ih _ (by omega) (behind + 2) rfl
      refine ⟨_, last, .more hlength hmore hname hordinal hrounds, ?_⟩
      rw [readTable_of_round hlength hmore hname hordinal]
      obtain ⟨hzero, hrest⟩ | ⟨hcut, cause, hrest⟩ := hends
      · exact .inl ⟨hzero, by rw [hrest]; rfl⟩
      · exact .inr ⟨hcut, cause, by rw [hrest]; rfl⟩
    · exact ⟨[], place, .none place, .inr ⟨hcut, readTable_of_cutOff hcut⟩⟩

/-! ## 3. Names of ASCII characters -/

/-- The name of an entry consists of ASCII characters. -/
def IsAscii (entry : List UInt8 × Nat) : Prop := ∀ b ∈ entry.1, b.toNat < 0x80

/-- The bytes of a resident name that consists of ASCII characters. -/
def toBytes (order : ByteOrder) (r : ResidentName) : List UInt8 :=
  encode order (asciiBytes r.name) r.ordinal

end ResidentName

-- ASCII names are shown as what they are stored as.
theorem asciiBytes_nameText {name : List UInt8} (h : ∀ b ∈ name, b.toNat < 0x80) :
    asciiBytes (nameText name) = name := by
  rw [asciiBytes, nameText, String.toList_ofList, List.map_map]
  refine (List.map_congr_left fun b hb => ?_).trans (List.map_id _)
  have hbyte := h b hb
  have hvalid : b.toNat.isValidChar := .inl (by omega)
  show UInt8.ofNat (if b.toNat < 0x80 then Char.ofNat b.toNat else '\ufffd').toNat = b
  rw [if_pos hbyte, Char.toNat_ofNat, if_pos hvalid, UInt8.ofNat_toNat]

theorem ResidentName.toBytes_ofEntries {order : ByteOrder} {entries : List (List UInt8 × Nat)}
    (h : ∀ e ∈ entries, IsAscii e) :
    (entries.map ofEntry).flatMap (toBytes order) = encodeAll order entries := by
  rw [List.flatMap_map, encodeAll, List.flatMap_def, List.flatMap_def]
  refine congrArg List.flatten (List.map_congr_left fun e he => ?_)
  rw [toBytes, ofEntry, asciiBytes_nameText (h e he)]

/-! ## 4. Counted names -/

/-- So many counted names stand in the source from a place on. -/
def Source.HoldsNames (source : Source) (place : Int) (raw : List (List UInt8)) : Prop :=
  (∀ name ∈ raw, name.length < 256) ∧ (raw = [] ∨ source.Holds place (raw.flatMap countedName))

theorem Source.holdsNames_cons_iff {source : Source} {place : Int} {name : List UInt8}
    {raw : List (List UInt8)} :
    source.HoldsNames place (name :: raw) ↔
      (name.length < 256 ∧ source.Holds place (countedName name)) ∧
        source.HoldsNames (place + 1 + name.length) raw := by
  have hnext : place + (countedName name).length = place + 1 + name.length := by
    rw [countedName, List.length_cons]
    omega
  simp only [HoldsNames, List.forall_mem_cons, List.flatMap_cons, Source.holds_append_iff, hnext,
    reduceCtorEq, false_or]
  constructor
  · rintro ⟨⟨hname, hraw⟩, hheld, hrest⟩
    exact ⟨⟨hname, hheld⟩, hraw, .inr hrest⟩
  · rintro ⟨⟨hname, hheld⟩, hraw, rfl | hrest⟩
    · have hend := hheld.end_le
      have hstart := hheld.nonneg
      refine ⟨⟨hname, hraw⟩, hheld, holds_iff.mpr ⟨by omega, ?_, rfl⟩⟩
      rw [List.flatMap_nil, List.length_nil]
      omega
    · exact ⟨⟨hname, hraw⟩, hheld, hrest⟩

/-- Names are read iff the source holds so many. -/
theorem readNames_eq_ok_iff {source : Source} {place : Int} {count : Nat} {names : List String} :
    readNames source place count = .ok names ↔
      ∃ raw, raw.length = count ∧ source.HoldsNames place raw ∧ names = raw.map nameText := by
  induction count generalizing place names with
  | zero =>
    constructor
    · intro h
      cases h
      exact ⟨[], rfl, ⟨by simp, .inl rfl⟩, rfl⟩
    · rintro ⟨raw, hlen, -, rfl⟩
      rw [List.length_eq_zero_iff.mp hlen]
      rfl
  | succ count ih =>
    simp only [readNames, Except.bind_eq_ok_iff, ih]
    constructor
    · rintro ⟨⟨name, behind⟩, hname, _, ⟨raw, hlen, hheld, rfl⟩, h⟩
      cases h
      obtain ⟨hshort, hcounted, rfl⟩ := Source.readCounted_eq_ok_iff.mp hname
      exact ⟨name :: raw, by rw [List.length_cons, hlen],
        Source.holdsNames_cons_iff.mpr ⟨⟨hshort, hcounted⟩, hheld⟩, rfl⟩
    · rintro ⟨raw, hlen, hheld, rfl⟩
      cases raw with
      | nil => contradiction
      | cons name raw =>
        obtain ⟨⟨hshort, hcounted⟩, hrest⟩ := Source.holdsNames_cons_iff.mp hheld
        exact ⟨_, Source.readCounted_eq_ok_iff.mpr ⟨hshort, hcounted, rfl⟩, _,
          ⟨raw, Nat.succ.inj hlen, hrest, rfl⟩, rfl⟩

namespace Tables

variable {t : Tables}

theorem importModules_eq (h : t.header.importModuleTable ≠ 0) :
    t.importModules = readNames t.source (t.offset + t.header.importModuleTable)
      t.header.importModuleCount := by
  rw [importModules, tableOffset_eq_ok_iff.mpr ⟨fun _ => h, rfl⟩]
  rfl

/-- The names of import modules are refused as truncated iff the source does not hold so many. -/
theorem importModules_eq_truncated_iff (h : t.header.importModuleTable ≠ 0) :
    (∃ cause, t.importModules = .error (.truncated cause)) ↔
      ¬∃ raw, raw.length = t.header.importModuleCount ∧
        t.source.HoldsNames (t.offset + t.header.importModuleTable) raw := by
  rw [importModules_eq h]
  constructor
  · rintro ⟨cause, hread⟩ ⟨raw, hlen, hheld⟩
    rw [readNames_eq_ok_iff.mpr ⟨raw, hlen, hheld, rfl⟩] at hread
    contradiction
  · intro hnone
    cases hread : readNames t.source (t.offset + t.header.importModuleTable)
        t.header.importModuleCount with
    | ok names =>
      obtain ⟨raw, hlen, hheld, -⟩ := readNames_eq_ok_iff.mp hread
      exact absurd ⟨raw, hlen, hheld⟩ hnone
    | error e =>
      obtain ⟨cause, rfl⟩ := failsOnly_readNames _ _ _ e hread
      exact ⟨cause, rfl⟩

end Tables

/-! ## 5. Tables -/

/-- Name tables. Entries with an empty name behind them are read as these entries, whatever stands
around them. From any place on, reading comes to an end after a quarter as many rounds as there are
bytes, and one more: at a zero, and then the entries that were read are what was passed, or at an
entry that is cut off, and then it is refused as truncated. The names of import modules, as many as
are declared, are read if the source holds them, and refused as truncated iff it does not hold so
many. -/
theorem nameTables_outcome :
    (∀ (source : Source) (place : Int),
      (∀ entries : List (List UInt8 × Nat), (∀ e ∈ entries, IsResident e) →
        source.Holds place (ResidentName.encodeAll source.order entries ++ [0]) →
          ResidentName.readTable source place = .ok (entries.map ResidentName.ofEntry)) ∧
      (∀ entries last, ResidentName.Rounds source place entries last →
        entries.length + 1 ≤ source.size / 4 + 1) ∧
      ∃ entries last, ResidentName.Rounds source place entries last ∧
        ((source.word 1 last = .ok 0 ∧
            ∃ names, ResidentName.readTable source place = .ok names ∧
              names = entries.map ResidentName.ofEntry ∧ (∀ e ∈ entries, IsResident e) ∧
              last = place + (ResidentName.encodeAll source.order entries).length ∧
              source.Holds place (ResidentName.encodeAll source.order entries) ∧
              ((∀ e ∈ entries, ResidentName.IsAscii e) →
                names.flatMap (ResidentName.toBytes source.order) =
                  ResidentName.encodeAll source.order entries)) ∨
          (ResidentName.CutOff source last ∧
            ∃ cause, ResidentName.readTable source place = .error (.truncated cause)))) ∧
    ∀ t : Tables, t.header.importModuleTable ≠ 0 →
      (∀ raw, raw.length = t.header.importModuleCount →
        t.source.HoldsNames (t.offset + t.header.importModuleTable) raw →
          t.importModules = .ok (raw.map nameText)) ∧
      ((∃ cause, t.importModules = .error (.truncated cause)) ↔
        ¬∃ raw, raw.length = t.header.importModuleCount ∧
          t.source.HoldsNames (t.offset + t.header.importModuleTable) raw) := by
  refine ⟨fun source place =>
      ⟨fun entries hentries hheld => ?_, fun entries last hrounds => ?_, ?_⟩,
    fun t htable => ⟨fun raw hlen hheld => ?_, Tables.importModules_eq_truncated_iff htable⟩⟩
  · exact ResidentName.readTable_of_holds hentries hheld
  · exact Nat.succ_le_succ hrounds.length_le
  · obtain ⟨entries, last, hrounds, ⟨hzero, hread⟩ | hcut⟩ :=
      ResidentName.exists_rounds source place
    · obtain ⟨hentries, hheld⟩ := hrounds.holds hzero
      exact ⟨entries, last, hrounds, .inl ⟨hzero, _, hread, rfl, hentries, hrounds.last_eq,
        (Source.holds_append_iff.mp hheld).1, ResidentName.toBytes_ofEntries⟩⟩
    · exact ⟨entries, last, hrounds, .inr hcut⟩
  · rw [Tables.importModules_eq htable]
    exact readNames_eq_ok_iff.mpr ⟨raw, hlen, hheld, rfl⟩

/-- Two resident names between other bytes, one of them with a byte that is no ASCII character, and
the import module of the sample. -/
theorem nameTables_outcome_sample :
    let source : Source := ⟨⟨#[9, 1, 0x41, 5, 0, 2, 0x80, 0x42, 6, 0, 0, 9]⟩, .little⟩
    let entries : List (List UInt8 × Nat) := [([0x41], 5), ([0x80, 0x42], 6)]
    let t := Blueprint.sample.tables (Blueprint.sample.source .little)
    (∀ e ∈ entries, IsResident e) ∧
      source.Holds 1 (ResidentName.encodeAll .little entries ++ [0]) ∧
      ResidentName.readTable source 1 = .ok [⟨"A", 5⟩, ⟨"\ufffdB", 6⟩] ∧
      t.header.importModuleTable ≠ 0 ∧
      t.source.HoldsNames (t.offset + t.header.importModuleTable) [asciiBytes "DOSCALLS"] ∧
      t.importModules = .ok ["DOSCALLS"] := by
  intro source entries t
  have hentries : ∀ e ∈ entries, IsResident e :=
    List.forall_mem_cons.mpr ⟨⟨by decide, by decide, by decide⟩,
      List.forall_mem_singleton.mpr ⟨by decide, by decide, by decide⟩⟩
  have hheld : source.Holds 1 (ResidentName.encodeAll .little entries ++ [0]) :=
    Source.holds_iff.mpr (by decide +kernel)
  have htable : t.header.importModuleTable ≠ 0 := by decide +kernel
  have hnames : t.source.HoldsNames (t.offset + t.header.importModuleTable)
      [asciiBytes "DOSCALLS"] :=
    ⟨by decide +kernel, .inr (Source.holds_iff.mpr (by decide +kernel))⟩
  obtain ⟨hresident, himports⟩ := nameTables_outcome
  have hread := (himports t htable).1 _ (by decide +kernel) hnames
  have hname : [asciiBytes "DOSCALLS"].map nameText = ["DOSCALLS"] := by decide +kernel
  exact ⟨hentries, hheld, (hresident source 1).1 entries hentries hheld, htable, hnames,
    hname ▸ hread⟩

end LinearExecutable
