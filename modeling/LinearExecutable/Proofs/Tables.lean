import LinearExecutable.Fixup.Page
import LinearExecutable.NameTable
import LinearExecutable.ObjectTable
import LinearExecutable.PageTable
import LinearExecutable.Proofs.Bytes.Window

/-!
# Reading the tables

Each table is read iff the encodings of its entries stand one behind the other at its offset.
-/

namespace LinearExecutable

-- Numbered elements that give the members of a list: the elements come from the members, and the
-- members are numbered.
theorem forall₂_zipIdx_iff {α β : Type} {content : β → α} {number : β → Nat} {as : List α}
    {bs : List β} {first : Nat} :
    List.Forall₂ (fun (x : α × Nat) b => x.1 = content b ∧ number b = x.2) (as.zipIdx first) bs ↔
      as = bs.map content ∧ bs.map number = List.range' first bs.length := by
  induction bs generalizing as first with
  | nil => simp
  | cons b bs ih =>
    rw [List.map_cons, List.map_cons, List.length_cons, List.range'_succ, List.cons.injEq]
    cases as with
    | nil => simp
    | cons a as =>
      rw [List.zipIdx_cons, List.forall₂_cons, ih, List.cons.injEq]
      grind

-- Two lists of one length are the two sides of a list of pairs.
theorem exists_pairs {α β : Type} {as : List α} {bs : List β} (h : as.length = bs.length) :
    ∃ pairs : List (α × β), as = pairs.map Prod.fst ∧ bs = pairs.map Prod.snd :=
  ⟨as.zip bs, (List.map_fst_zip h.le).symm, (List.map_snd_zip h.ge).symm⟩

/-! ## 1. Object table -/

namespace ObjectEntry

/-- Every word of an entry fits its field. -/
def Fits (o : ObjectEntry) : Prop :=
  layout.Fits o.toValues

/-- The bytes of an entry. -/
def encode (order : ByteOrder) (o : ObjectEntry) : List UInt8 :=
  layout.encode order o.toValues

theorem ofValues?_eq_some_iff {number : Nat} {values : List Value} {o : ObjectEntry} :
    ofValues? number values = some o ↔ values = o.toValues ∧ o.number = number := by
  constructor
  · intro h
    unfold ofValues? at h
    split at h
    · cases h
      exact ⟨rfl, rfl⟩
    · contradiction
  · rintro ⟨rfl, rfl⟩
    rfl

/-- An object table is read iff the source holds the entries, numbered from one. -/
theorem readTable_eq_ok_iff {source : Source} {offset next : Int} {count : Nat}
    {objects : List ObjectEntry} :
    readTable source offset count = .ok (objects, next) ↔
      objects.length = count ∧ objects.map number = List.range' 1 objects.length ∧
        (∀ o ∈ objects, o.Fits) ∧ source.Holds offset (objects.flatMap (encode source.order)) ∧
        next = offset + count * layout.size := by
  have hnumbered : ∀ records : List (List Value),
      ((records.zipIdx 1).mapM fun x => ofValues? x.2 x.1) = some objects ↔
        records = objects.map toValues ∧ objects.map number = List.range' 1 objects.length := by
    intro records
    rw [Option.mapM_eq_some_iff, ← forall₂_zipIdx_iff]
    simp only [ofValues?_eq_some_iff]
  rw [readTable, Except.bind_eq_ok_iff]
  simp only [Source.unpackMany_eq_ok_iff (show 0 < layout.size by decide)]
  constructor
  · rintro ⟨records, ⟨hlen, hfits, hheld⟩, hread⟩
    split at hread
    · rename_i found hfound
      cases hread
      obtain ⟨rfl, hnumbers⟩ := (hnumbered records).mp hfound
      rw [List.flatMap_map] at hheld
      exact ⟨by rw [← hlen, List.length_map], hnumbers,
        fun o ho => hfits _ (List.mem_map_of_mem ho), hheld, rfl⟩
    · contradiction
  · rintro ⟨hlen, hnumbers, hfits, hheld, rfl⟩
    refine ⟨objects.map toValues, ⟨by rw [List.length_map, hlen], ?_, ?_⟩, ?_⟩
    · intro values hvalues
      obtain ⟨o, ho, rfl⟩ := List.mem_map.mp hvalues
      exact hfits o ho
    · rw [List.flatMap_map]
      exact hheld
    · have hobjects := (hnumbered _).mpr ⟨rfl, hnumbers⟩
      split
      · rename_i found hfound
        cases hfound.symm.trans hobjects
        rfl
      · rename_i hnone
        cases hnone.symm.trans hobjects

end ObjectEntry

/-! ## 2. Page table -/

namespace PageEntry

/-- What an entry stores fits its fields; an LE entry has no size. -/
def Stored.Fits (stored : Stored) : PageForm → Prop
  | .le => stored.size = 0 ∧ stored.code < 256 ∧ stored.offset < 0x1000000
  | .lx => stored.offset < Word.bound 4 ∧ stored.size < Word.bound 2 ∧ stored.code < Word.bound 2

/-- The values of an entry. -/
def Stored.toValues (stored : Stored) : PageForm → List Value
  | .le => [.unsigned (stored.offset * 256 + stored.code)]
  | .lx => [.unsigned stored.offset, .unsigned stored.size, .unsigned stored.code]

/-- The bytes of an entry. -/
def Stored.encode (order : ByteOrder) (form : PageForm) (stored : Stored) : List UInt8 :=
  (layout form).encode (storedOrder order form) (stored.toValues form)

theorem lx_fits_iff {values : List Value} :
    (layout .lx).Fits values ↔ ∃ offset size code, offset < Word.bound 4 ∧ size < Word.bound 2 ∧
      code < Word.bound 2 ∧ values = [.unsigned offset, .unsigned size, .unsigned code] := by
  rw [layout, Layout.fits_word_cons_iff]
  simp only [Layout.fits_unsigned_iff]
  constructor
  · rintro ⟨offset, _, hoffset, ⟨halves, hlen, hbound, rfl⟩, rfl⟩
    obtain ⟨size, code, rfl⟩ := List.length_eq_two.mp hlen
    exact ⟨offset, size, code, hoffset, hbound _ (by simp), hbound _ (by simp), rfl⟩
  · rintro ⟨offset, size, code, hoffset, hsize, hcode, rfl⟩
    exact ⟨offset, _, hoffset, ⟨[size, code], rfl, by simp [hsize, hcode], rfl⟩, rfl⟩

-- An entry stores what its values say.
theorem stored_eq_iff (form : PageForm) (values : List Value) (stored : Stored) :
    (layout form).Fits values ∧ Stored.ofValues? form values = some stored ↔
      stored.Fits form ∧ values = stored.toValues form := by
  obtain ⟨offset, size, code⟩ := stored
  cases form with
  | le =>
    -- one word: the code in its low byte, the offset above it
    rw [layout, Layout.fits_word_iff]
    have hbound : Word.bound 4 = 0x100000000 := rfl
    constructor
    · rintro ⟨⟨word, hword, rfl⟩, h⟩
      cases h
      refine ⟨⟨rfl, Nat.mod_lt _ (by decide), ?_⟩, by rw [Stored.toValues, Nat.div_add_mod']⟩
      show word / 256 < 0x1000000
      omega
    · rintro ⟨⟨hsize, hcode, hoffset⟩, rfl⟩
      dsimp only at hsize hcode hoffset
      subst hsize
      have hword : (offset * 256 + code) / 256 = offset ∧ (offset * 256 + code) % 256 = code := by
        omega
      refine ⟨⟨offset * 256 + code, by omega, rfl⟩, ?_⟩
      rw [Stored.toValues, Stored.ofValues?, hword.1, hword.2]
  | lx =>
    rw [lx_fits_iff]
    constructor
    · rintro ⟨⟨offset', size', code', hoffset, hsize, hcode, rfl⟩, h⟩
      cases h
      exact ⟨⟨hoffset, hsize, hcode⟩, rfl⟩
    · rintro ⟨⟨hoffset, hsize, hcode⟩, rfl⟩
      exact ⟨⟨_, _, _, hoffset, hsize, hcode, rfl⟩, rfl⟩

-- The values of an entry always store a page.
theorem exists_stored {form : PageForm} {values : List Value}
    (h : (layout form).Fits values) :
    ∃ stored, Stored.ofValues? form values = some stored := by
  cases form with
  | le =>
    obtain ⟨word, -, rfl⟩ := Layout.fits_word_iff.mp h
    exact ⟨_, rfl⟩
  | lx =>
    obtain ⟨offset, size, code, -, -, -, rfl⟩ := lx_fits_iff.mp h
    exact ⟨_, rfl⟩

theorem kindOf_eq_ok_iff {number code : Nat} {kind : PageKind} :
    kindOf number code = .ok kind ↔ code = kind.code := by
  unfold kindOf
  constructor
  · intro h
    split at h
    · rename_i found hfound
      cases h
      match code, hfound with
      | 0, h | 1, h | 2, h | 3, h | 4, h | 5, h => cases h; rfl
      | n + 6, h => cases h
    · contradiction
  · rintro rfl
    rw [PageKind.ofCode?_code]

/-- Pages as a table stores them: what stands there, and the kind that it stands for. -/
def StoredAs (form : PageForm) (page : Stored × PageKind) : Prop :=
  page.1.Fits form ∧ page.1.code = page.2.code

-- The kinds of the pages are read iff every entry stores the code of its kind.
theorem mapM_kindOf_eq_ok_iff {stored : List Stored} {kinds : List PageKind} {first : Nat} :
    ((stored.zipIdx first).mapM fun (page, number) => kindOf number page.code) = .ok kinds ↔
      stored.map Stored.code = kinds.map PageKind.code := by
  induction stored generalizing kinds first with
  | nil => cases kinds <;> simp [pure, Except.pure]
  | cons page stored ih =>
    rw [List.zipIdx_cons, List.mapM_cons, Except.bind_eq_ok_iff]
    simp only [kindOf_eq_ok_iff, Except.bind_eq_ok_iff, ih]
    constructor
    · rintro ⟨kind, hkind, kinds', hkinds, h⟩
      cases h
      rw [List.map_cons, List.map_cons, hkind, hkinds]
    · intro h
      cases kinds with
      | nil => contradiction
      | cons kind kinds =>
        rw [List.map_cons, List.map_cons, List.cons.injEq] at h
        exact ⟨kind, h.1, kinds, h.2, rfl⟩

-- What the records of a table store.
theorem mapM_ofValues?_eq_some_iff {form : PageForm} {records : List (List Value)}
    {stored : List Stored} :
    (∀ r ∈ records, (layout form).Fits r) ∧
        records.mapM (Stored.ofValues? form) = some stored ↔
      (∀ s ∈ stored, s.Fits form) ∧ records = stored.map fun s => s.toValues form := by
  rw [Option.mapM_eq_some_iff]
  induction stored generalizing records with
  | nil => cases records <;> simp
  | cons s stored ih =>
    cases records with
    | nil => simp
    | cons r records =>
      rw [List.forall₂_cons, List.forall_mem_cons, List.forall_mem_cons, List.map_cons,
        List.cons.injEq]
      have hhead := stored_eq_iff form r s
      have htail := @ih records
      tauto

theorem length_ofStored (form : PageForm) (pageSize lastPageSize : Int)
    (pages : List (Stored × PageKind)) :
    (ofStored form pageSize lastPageSize pages).length = pages.length := by
  rw [ofStored, List.length_map, List.length_zipIdx]

theorem number_ofStored (form : PageForm) (pageSize lastPageSize : Int)
    (pages : List (Stored × PageKind)) :
    (ofStored form pageSize lastPageSize pages).map number = List.range' 1 pages.length := by
  rw [ofStored, List.map_map, ← List.zipIdx_map_snd 1 pages]
  rfl

theorem kind_ofStored (form : PageForm) (pageSize lastPageSize : Int)
    (pages : List (Stored × PageKind)) :
    (ofStored form pageSize lastPageSize pages).map kind = pages.map Prod.snd := by
  rw [ofStored, List.map_map]
  conv_rhs => rw [← List.zipIdx_map_fst 1 pages, List.map_map]
  rfl

/-- A page table is read iff the source holds what the entries store. -/
theorem readTable_eq_ok_iff {source : Source} {offset next : Int} {count : Nat} {form : PageForm}
    {pageSize lastPageSize : Int} {table : List PageEntry} :
    readTable source offset count form pageSize lastPageSize = .ok (table, next) ↔
      ∃ pages : List (Stored × PageKind), pages.length = count ∧ (∀ p ∈ pages, StoredAs form p) ∧
        source.Holds offset (pages.flatMap fun p => p.1.encode source.order form) ∧
        table = ofStored form pageSize lastPageSize pages ∧
        next = offset + count * form.entrySize := by
  have hpos : 0 < (layout form).size := by cases form <;> decide
  rw [readTable, Except.bind_eq_ok_iff]
  simp only [Source.unpackMany_eq_ok_iff hpos]
  constructor
  · rintro ⟨records, ⟨hlen, hfits, hheld⟩, hread⟩
    split at hread
    · contradiction
    · rename_i stored hstored
      obtain ⟨kinds, hkinds, hread⟩ := Except.bind_eq_ok_iff.mp hread
      cases hread
      obtain ⟨hall, rfl⟩ := mapM_ofValues?_eq_some_iff.mp ⟨hfits, hstored⟩
      have hcodes := mapM_kindOf_eq_ok_iff.mp hkinds
      -- as many kinds as entries, so both are sides of one list
      obtain ⟨pages, rfl, rfl⟩ := exists_pairs (by simpa using congrArg List.length hcodes)
      rw [List.map_map, List.map_map, List.map_inj_left] at hcodes
      rw [List.flatMap_map, List.flatMap_map] at hheld
      refine ⟨pages, by simpa using hlen, fun p hp => ⟨?_, hcodes p hp⟩, hheld, ?_, rfl⟩
      · exact hall _ (List.mem_map_of_mem hp)
      · rw [← List.zip_of_prod rfl rfl]
  · rintro ⟨pages, hlen, hstored, hheld, rfl, rfl⟩
    have hfits : ∀ s ∈ pages.map Prod.fst, s.Fits form :=
      List.forall_mem_map.mpr fun p hp => (hstored p hp).1
    have hvalues := mapM_ofValues?_eq_some_iff.mpr ⟨hfits, rfl⟩
    refine ⟨_, ⟨by simpa using hlen, hvalues.1, ?_⟩, ?_⟩
    · rw [List.flatMap_map, List.flatMap_map]
      exact hheld
    · rw [hvalues.2]
      refine Except.bind_eq_ok_iff.mpr ⟨pages.map Prod.snd, mapM_kindOf_eq_ok_iff.mpr ?_, ?_⟩
      · rw [List.map_map, List.map_map, List.map_inj_left]
        exact fun p hp => (hstored p hp).2
      · rw [← List.zip_of_prod rfl rfl]
        rfl

end PageEntry

/-! ## 3. Fixup page table -/

namespace Fixup

-- No page ends before it starts iff the offsets never decrease.
theorem descending?_eq_none_iff {page : Nat} {offsets : List Nat} :
    descending? page offsets = none ↔ offsets.Pairwise (· ≤ ·) := by
  -- neighbours are compared; that all are ordered follows since `≤` is transitive
  fun_induction descending? page offsets with
  | case1 page start stop rest hlt =>
    constructor
    · intro h
      contradiction
    · intro h
      have hle := List.rel_of_pairwise_cons h (by simp : stop ∈ stop :: rest)
      omega
  | case2 page start stop rest hle ih =>
    rw [ih, List.pairwise_cons (a := start), iff_and_self]
    intro h next hnext
    rcases List.mem_cons.mp hnext with rfl | hrest
    · omega
    · have := List.rel_of_pairwise_cons h hrest
      omega
  | case3 offsets page hshort =>
    cases offsets with
    | nil => simp
    | cons start offsets =>
      cases offsets with
      | nil => simp
      | cons stop offsets => exact absurd rfl (hshort start stop offsets)

-- Records of one word each.
theorem fits_words_iff {width : Nat} {records : List (List Value)} :
    (∀ r ∈ records, Layout.Fits [.unsigned 1 width] r) ↔
      ∃ words : List Nat, (∀ n ∈ words, n < Word.bound width) ∧
        records = words.map fun n => [.unsigned n] := by
  simp only [Layout.fits_word_iff]
  induction records with
  | nil => simp
  | cons r records ih =>
    rw [List.forall_mem_cons, ih]
    constructor
    · rintro ⟨⟨n, hn, rfl⟩, words, hwords, rfl⟩
      exact ⟨n :: words, List.forall_mem_cons.mpr ⟨hn, hwords⟩, rfl⟩
    · rintro ⟨words, hwords, h⟩
      cases words with
      | nil => contradiction
      | cons n words =>
        rw [List.map_cons, List.cons.injEq] at h
        rw [List.forall_mem_cons] at hwords
        exact ⟨⟨n, hwords.1, h.1⟩, words, hwords.2, h.2⟩

/-- A fixup page table is read iff the source holds its offsets and they never decrease. -/
theorem readPageTable_eq_ok_iff {source : Source} {offset : Int} {pages : Nat}
    {offsets : List Nat} :
    readPageTable source offset pages = .ok offsets ↔
      offsets.length = pages + 1 ∧ (∀ n ∈ offsets, n < Word.bound 4) ∧
        source.Holds offset (offsets.flatMap (source.order.wordBytes 4)) ∧
        offsets.Pairwise (· ≤ ·) := by
  have hcount : (pages : Int) + 1 = (pages + 1 : Nat) := rfl
  have hwords : ∀ words : List Nat,
      ((words.map fun n => [Value.unsigned n]).flatten.mapM Value.nat?) = some words := by
    intro words
    rw [← List.flatMap_def, ← List.map_eq_flatMap, Value.mapM_nat?]
  have hbytes : ∀ words : List Nat, (words.map fun n => [Value.unsigned n]).flatMap
      (Layout.encode source.order [.unsigned 1 4]) = words.flatMap (source.order.wordBytes 4) := by
    intro words
    rw [List.flatMap_map]
    simp only [Layout.encode_word]
  rw [readPageTable, hcount, Except.bind_eq_ok_iff]
  simp only [Source.unpackMany_eq_ok_iff (show 0 < Layout.size [.unsigned 1 4] by decide)]
  constructor
  · rintro ⟨records, ⟨hlen, hfits, hheld⟩, hread⟩
    obtain ⟨words, hbound, rfl⟩ := fits_words_iff.mp hfits
    rw [hbytes] at hheld
    rw [hwords] at hread
    dsimp only at hread
    split at hread
    · contradiction
    · rename_i hdescending
      cases hread
      exact ⟨by simpa using hlen, hbound, hheld, descending?_eq_none_iff.mp hdescending⟩
  · rintro ⟨hlen, hbound, hheld, hsorted⟩
    refine ⟨offsets.map fun n => [.unsigned n], ⟨by simpa using hlen, ?_, ?_⟩, ?_⟩
    · exact fits_words_iff.mpr ⟨offsets, hbound, rfl⟩
    · rw [hbytes]
      exact hheld
    · rw [hwords]
      dsimp only
      rw [descending?_eq_none_iff.mpr hsorted]
      rfl

end Fixup

/-! ## 4. Name tables -/

/-- Names that a source holds one behind the other, each with its length in front, are read. -/
theorem readNames_of_holds {source : Source} {offset : Int} {raw : List (List UInt8)}
    (hshort : ∀ name ∈ raw, name.length < 256)
    (hheld : source.Holds offset (raw.flatMap countedName)) :
    readNames source offset raw.length = .ok (raw.map nameText) := by
  induction raw generalizing offset with
  | nil => rfl
  | cons name raw ih =>
    rw [List.forall_mem_cons] at hshort
    rw [List.flatMap_cons, Source.holds_append_iff] at hheld
    have hread := Source.readCounted_eq_ok_iff.mpr ⟨hshort.1, hheld.1, rfl⟩
    have hnext : offset + (countedName name).length = offset + 1 + name.length := by
      rw [countedName, List.length_cons]
      omega
    rw [hnext] at hheld
    rw [List.length_cons, readNames, hread, Except.bind_ok]
    dsimp only
    rw [ih hshort.2 hheld.2]
    rfl

/-- The resident names from an offset on, without the check that a name read is in the source. -/
theorem ResidentName.readTable_eq (source : Source) (offset : Int) :
    readTable source offset = (do
      let length ← source.word 1 offset
      if length = 0 then return []
      let (name, next) ← source.readCounted offset
      let ordinal ← source.word 2 next
      let others ← readTable source (next + 2)
      return ⟨nameText name, ordinal⟩ :: others) := by
  rw [readTable]
  congr 1
  funext length
  split
  · rfl
  · split <;> rename_i hread <;> rw [hread] <;> rfl

/-- A name that the resident name table can have: not empty, with an ordinal of 16 bits. -/
def IsResident (entry : List UInt8 × Nat) : Prop :=
  entry.1 ≠ [] ∧ entry.1.length < 256 ∧ entry.2 < Word.bound 2

/-- Resident names that a source holds, with an empty one behind them, are read. -/
theorem ResidentName.readTable_of_holds {source : Source} {offset : Int}
    {entries : List (List UInt8 × Nat)} (hentries : ∀ e ∈ entries, IsResident e)
    (hheld : source.Holds offset
      (entries.flatMap (fun e => encode source.order e.1 e.2) ++ [0])) :
    readTable source offset = .ok (entries.map fun e => ⟨nameText e.1, e.2⟩) := by
  induction entries generalizing offset with
  | nil =>
    -- the empty name ends the table
    have hword : source.word 1 offset = .ok 0 := by
      rw [Source.word_eq_ok_iff, ByteOrder.wordBytes_one]
      exact ⟨by decide, hheld⟩
    rw [readTable_eq, hword]
    rfl
  | cons e entries ih =>
    obtain ⟨⟨hne, hlen, hordinal⟩, hrest⟩ := List.forall_mem_cons.mp hentries
    rw [List.flatMap_cons, encode, List.append_assoc, List.append_assoc, Source.holds_append_iff,
      Source.holds_append_iff, ByteOrder.length_wordBytes] at hheld
    obtain ⟨hname, hword, htail⟩ := hheld
    have hnext : offset + (countedName e.1).length = offset + 1 + e.1.length := by
      rw [countedName, List.length_cons]
      omega
    rw [hnext] at hword htail
    push_cast at htail
    have hlength : source.word 1 offset = .ok e.1.length := by
      rw [Source.word_eq_ok_iff, ByteOrder.wordBytes_one]
      exact ⟨hlen, (Source.holds_append_iff (a := [_])).mp hname |>.1⟩
    have hpos : e.1.length ≠ 0 := fun h => hne (List.length_eq_zero_iff.mp h)
    rw [readTable_eq, hlength, Except.bind_ok, if_neg hpos,
      Source.readCounted_eq_ok_iff.mpr ⟨hlen, hname, rfl⟩, Except.bind_ok]
    dsimp only
    rw [Source.word_eq_ok_iff.mpr ⟨hordinal, hword⟩, Except.bind_ok]
    rw [ih hrest htail]
    rfl

end LinearExecutable
