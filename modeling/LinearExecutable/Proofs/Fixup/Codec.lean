import LinearExecutable.Fixup.Page
import LinearExecutable.Proofs.Fixup.Steps

/-!
# Fixup records are decoded from what encodes them

A record is well formed when every field has the presence, the width and the range that its form
asks for. Decoding a page returns exactly the well-formed records whose encodings, one behind the
other, are the page's bytes: encoding and decoding undo each other, in both orders of bytes and
wherever the page stands.
-/

namespace LinearExecutable.Fixup

/-! ## 1. Well-formed records -/

/-- A record that can be decoded, with every field as its form asks for. -/
structure Record.WellFormed (r : Record) : Prop where
  source : FitsIn 1 r.form.source
  flags : FitsIn 1 r.form.flags
  accepted : r.form.fault? = none
  target : r.target.Fits r.form
  additive : FitsWidth? (if r.form.isAdditive then some r.form.additiveWidth else none) r.additive?
  offsets : ∀ i ∈ r.offsets, Word.SignedRange 2 i
  /-- A list of source offsets has a length of one byte; without a list there is one offset. -/
  count : if r.form.hasList then r.offsets.length ≤ 255 else r.offsets.length = 1

theorem Record.wellFormed_iff {r : Record} :
    r.WellFormed ↔ FitsIn 1 r.form.source ∧ FitsIn 1 r.form.flags ∧ r.form.fault? = none ∧
      r.target.Fits r.form ∧
      FitsWidth? (if r.form.isAdditive then some r.form.additiveWidth else none) r.additive? ∧
      (∀ i ∈ r.offsets, Word.SignedRange 2 i) ∧
      (if r.form.hasList then r.offsets.length ≤ 255 else r.offsets.length = 1) :=
  ⟨fun ⟨h₁, h₂, h₃, h₄, h₅, h₆, h₇⟩ => ⟨h₁, h₂, h₃, h₄, h₅, h₆, h₇⟩,
    fun ⟨h₁, h₂, h₃, h₄, h₅, h₆, h₇⟩ => ⟨h₁, h₂, h₃, h₄, h₅, h₆, h₇⟩⟩

instance (r : Record) : Decidable r.WellFormed :=
  decidable_of_iff _ Record.wellFormed_iff.symm

/-- The record with the size of its encoding. -/
def Record.sized (order : ByteOrder) (r : Record) : Record :=
  { r with size := (r.encode order).length }

-- The size of a record is no part of its form.
theorem Record.WellFormed.sized {r : Record} (order : ByteOrder) (h : r.WellFormed) :
    (r.sized order).WellFormed :=
  wellFormed_iff.mpr (wellFormed_iff.mp h :)

/-- The bytes of a record behind its form. -/
def Record.fieldBytes (order : ByteOrder) (r : Record) : List UInt8 :=
  (if r.form.hasList then Record.numberBytes order 1 r.offsets.length
    else r.offsets.flatMap (Record.offsetBytes order)) ++
  (r.target.encode order r.form ++
  ((if r.form.isAdditive then Record.numberBytes order r.form.additiveWidth (r.additive?.getD 0)
    else []) ++
  (if r.form.hasList then r.offsets.flatMap (Record.offsetBytes order) else [])))

theorem Record.encode_eq (order : ByteOrder) (r : Record) :
    r.encode order = (Record.numberBytes order 1 r.form.source ++
      Record.numberBytes order 1 r.form.flags) ++ r.fieldBytes order := by
  have hgroup : ∀ a b c d e f g : List UInt8,
      a ++ b ++ c ++ d ++ e ++ f ++ g = (a ++ b) ++ (c ++ ((d ++ e) ++ (f ++ g))) := by simp
  exact hgroup _ _ _ _ _ _ _

/-! ## 2. One record -/

theorem Cursor.Ahead.advance {c : Cursor} {bytes : List UInt8} (h : c.Ahead bytes) :
    (c.advance bytes.length).Ahead [] :=
  (ahead_append_iff.mp ((List.append_nil bytes).symm ▸ h)).2

/-- What stands in front of the target: a source offset, or the length of a list of them. -/
def Record.leading (r : Record) : Int :=
  if r.form.hasList then r.offsets.length else r.offsets.headD 0

-- The source offsets are in range and as many as the form allows iff the leading number fits and
-- announces them.
theorem offsets_iff {r : Record} :
    ((∀ i ∈ r.offsets, Word.SignedRange 2 i) ∧
      (if r.form.hasList then r.offsets.length ≤ 255 else r.offsets.length = 1)) ↔
    (if r.form.hasList then FitsIn 1 r.leading else Word.SignedRange 2 r.leading) ∧
      (if r.form.hasList then
          r.offsets.length = r.leading.toNat ∧ ∀ i ∈ r.offsets, Word.SignedRange 2 i
        else r.offsets = [r.leading]) := by
  unfold Record.leading
  cases r.form.hasList with
  | true =>
    -- the length is announced by itself, so only its bound is left to compare
    simp only [if_true, fitsIn_natCast, Int.toNat_natCast, true_and]
    rw [show Word.bound 1 = 256 from rfl, and_comm]
    constructor <;> rintro ⟨h, h'⟩ <;> exact ⟨by omega, h'⟩
  | false =>
    simp only [Bool.false_eq_true, if_false]
    constructor
    · rintro ⟨hrange, hone⟩
      obtain ⟨i, hi⟩ := List.length_eq_one_iff.mp hone
      rw [hi] at hrange ⊢
      exact ⟨hrange i (by simp), rfl⟩
    · rintro ⟨hrange, hoffsets⟩
      rw [hoffsets]
      exact ⟨List.forall_mem_singleton.mpr hrange, rfl⟩

theorem fieldBytes_eq (order : ByteOrder) {r : Record}
    (h : if r.form.hasList then r.offsets.length = r.leading.toNat ∧
        ∀ i ∈ r.offsets, Word.SignedRange 2 i else r.offsets = [r.leading]) :
    r.fieldBytes order =
      (if r.form.hasList then Record.numberBytes order 1 r.leading
        else Record.offsetBytes order r.leading) ++
      (r.target.encode order r.form ++
      ((if r.form.isAdditive then Record.numberBytes order r.form.additiveWidth (r.additive?.getD 0)
        else []) ++
      (if r.form.hasList then r.offsets.flatMap (Record.offsetBytes order) else []))) := by
  cases hlist : r.form.hasList with
  | true => simp only [Record.fieldBytes, Record.leading, hlist, if_true]
  | false =>
    simp only [hlist, Bool.false_eq_true, if_false] at h
    simp only [Record.fieldBytes, hlist, Bool.false_eq_true, if_false]
    rw [h, List.flatMap_singleton]

-- The leading number of a record is the one that was read.
theorem leading_eq {r : Record} {first : Int}
    (hfirst : if r.form.hasList then FitsIn 1 first else Word.SignedRange 2 first)
    (hoffsets : if r.form.hasList then r.offsets.length = first.toNat ∧
        ∀ i ∈ r.offsets, Word.SignedRange 2 i else r.offsets = [first]) :
    r.leading = first := by
  unfold Record.leading
  cases hlist : r.form.hasList with
  | true =>
    simp only [hlist, if_true] at hfirst hoffsets ⊢
    rw [hoffsets.1, Int.toNat_of_nonneg hfirst.1]
  | false =>
    simp only [hlist, Bool.false_eq_true, if_false] at hoffsets ⊢
    rw [hoffsets, List.headD_cons]

/-- The fields behind a form are read iff they fit it and stand ahead. -/
theorem takeFields_eq_ok_iff {form : Form} {start : Int} {c next : Cursor} {r : Record}
    (hinside : c.Ahead []) :
    takeFields form start c = .ok r next ↔
      r.form = form ∧ r.target.Fits form ∧
        FitsWidth? (if form.isAdditive then some form.additiveWidth else none) r.additive? ∧
        (∀ i ∈ r.offsets, Word.SignedRange 2 i) ∧
        (if form.hasList then r.offsets.length ≤ 255 else r.offsets.length = 1) ∧
        c.Ahead (r.fieldBytes c.source.order) ∧
        next = c.advance (r.fieldBytes c.source.order).length ∧ r.size = next.offset - start := by
  simp only [takeFields, step_bind_eq_ok_iff, get_apply]
  constructor
  · rintro ⟨first, c₁, h₁, target, c₂, h₂, additive?, c₃, h₃, offsets, c₄, h₄, c₅, c₆, hget, hret⟩
    cases hget
    cases hret
    obtain ⟨hfirst, ahead₁, rfl⟩ := (reads_takeSource form _ _ _ hinside).mp h₁
    obtain ⟨htarget, ahead₂, rfl⟩ := (reads_takeTarget form _ _ _ ahead₁.advance).mp h₂
    obtain ⟨hadditive, ahead₃, rfl⟩ := (reads_takeAdditive form _ _ _ ahead₂.advance).mp h₃
    obtain ⟨hoffsets, ahead₄, rfl⟩ := (reads_takeOffsets form first _ _ _ ahead₃.advance).mp h₄
    -- the four spellings one behind the other are the bytes of a record with these fields
    let r : Record := ⟨form, offsets, target, additive?, 0⟩
    have hlead : r.leading = first := leading_eq hfirst hoffsets
    obtain ⟨hrange, hcount⟩ := (offsets_iff (r := r)).mpr (hlead.symm ▸ ⟨hfirst, hoffsets⟩)
    have hbytes := fieldBytes_eq c.source.order (r := r) (hlead.symm ▸ hoffsets)
    rw [hlead] at hbytes
    refine ⟨rfl, htarget, hadditive, hrange, hcount, ?_⟩
    show c.Ahead (r.fieldBytes c.source.order) ∧ _ = c.advance (r.fieldBytes _).length ∧ _
    rw [hbytes]
    simp only [Cursor.ahead_append_iff, List.length_append, ← Cursor.advance_advance]
    exact ⟨⟨ahead₁, ahead₂, ahead₃, ahead₄⟩, rfl, trivial⟩
  · rintro ⟨rfl, htarget, hadditive, hrange, hcount, hahead, rfl, hsize⟩
    obtain ⟨hfirst, hoffsets⟩ := offsets_iff.mp ⟨hrange, hcount⟩
    rw [fieldBytes_eq _ hoffsets] at hahead hsize ⊢
    simp only [Cursor.ahead_append_iff] at hahead
    obtain ⟨ahead₁, ahead₂, ahead₃, ahead₄⟩ := hahead
    refine ⟨_, _, (reads_takeSource _ _ _ _ hinside).mpr ⟨hfirst, ahead₁, rfl⟩,
      _, _, (reads_takeTarget _ _ _ _ ahead₁.advance).mpr ⟨htarget, ahead₂, rfl⟩,
      _, _, (reads_takeAdditive _ _ _ _ ahead₂.advance).mpr ⟨hadditive, ahead₃, rfl⟩,
      _, _, (reads_takeOffsets _ _ _ _ _ ahead₃.advance).mpr ⟨hoffsets, ahead₄, rfl⟩,
      _, _, rfl, ?_⟩
    simp only [List.length_append, ← Cursor.advance_advance] at hsize ⊢
    simp only [Cursor.advance_source] at hsize ⊢
    rw [← hsize]
    rfl

theorem inside_of_takeForm {c next : Cursor} {form : Form} (h : takeForm c = .ok form next) :
    c.Ahead [] := by
  rw [takeForm, step_bind_eq_ok_iff] at h
  obtain ⟨_, _, htake, -⟩ := h
  exact (Cursor.take_eq_ok_iff.mp htake).2.1.inside

/-- A record is read iff it is well formed and its encoding stands ahead. -/
theorem decodeRecord_eq_ok_iff {page : Int} {c next : Cursor} {r : Record} :
    decodeRecord page c = .ok r next ↔
      r.WellFormed ∧ r.size = (r.encode c.source.order).length ∧
        c.Ahead (r.encode c.source.order) ∧
        next = c.advance (r.encode c.source.order).length := by
  simp only [decodeRecord, step_bind_eq_ok_iff, get_apply]
  constructor
  · rintro ⟨_, _, hget, form, mid, hform, hfields⟩
    cases hget
    -- naming the record changes failures only
    rw [adaptExcept_eq_ok_iff] at hform
    obtain ⟨⟨hsource, hflags⟩, ahead₁, rfl⟩ :=
      (reads_takeForm _ _ _ (inside_of_takeForm hform)).mp hform
    cases haccepted : form.fault? with
    | some fault => simp [haccepted, throw_apply] at hfields
    | none =>
      simp only [haccepted, adaptExcept_eq_ok_iff] at hfields
      obtain ⟨rfl, htarget, hadditive, hoffsets, hcount, ahead₂, rfl, hsize⟩ :=
        (takeFields_eq_ok_iff ahead₁.advance).mp hfields
      rw [Record.encode_eq, Cursor.ahead_append_iff, List.length_append, ← Cursor.advance_advance]
      refine ⟨⟨hsource, hflags, haccepted, htarget, hadditive, hoffsets, hcount⟩, ?_,
        ⟨ahead₁, ahead₂⟩, rfl⟩
      rw [hsize]
      simp only [Cursor.advance]
      omega
  · rintro ⟨hwell, hsize, hahead, rfl⟩
    have hinside := hahead.inside
    rw [Record.encode_eq, Cursor.ahead_append_iff] at hahead
    refine ⟨_, _, rfl, _, _, adaptExcept_eq_ok_iff.mpr ((reads_takeForm _ _ _ hinside).mpr
      ⟨⟨hwell.source, hwell.flags⟩, hahead.1, rfl⟩), ?_⟩
    simp only [hwell.accepted, adaptExcept_eq_ok_iff]
    rw [takeFields_eq_ok_iff hahead.1.advance]
    refine ⟨rfl, hwell.target, hwell.additive, hwell.offsets, hwell.count, hahead.2, ?_, ?_⟩
    · rw [Record.encode_eq, List.length_append, ← Cursor.advance_advance]
      rfl
    · rw [hsize]
      simp only [Cursor.advance]
      omega

/-! ## 3. The records of a page -/

theorem Record.length_encode_pos (order : ByteOrder) (r : Record) :
    0 < (r.encode order).length := by
  rw [encode_eq]
  simp only [numberBytes, List.length_append, ByteOrder.length_wordBytes]
  omega

/-- What reading the records of a page comes to: the records kept are well formed and spelled one
behind the other from the cursor on; they use up the page's bytes, unless there are bytes left and
the record that starts with them cannot be read. -/
theorem recordsFrom_spec (page : Int) (c : Cursor) (hinside : c.Ahead []) :
    (∀ r ∈ (recordsFrom page c).records,
      r.WellFormed ∧ r.size = (r.encode c.source.order).length) ∧
    c.Ahead ((recordsFrom page c).records.flatMap (Record.encode c.source.order)) ∧
    match (recordsFrom page c).failure? with
      | none => c.remaining =
          ((recordsFrom page c).records.flatMap (Record.encode c.source.order)).length
      | some e =>
        (((recordsFrom page c).records.flatMap (Record.encode c.source.order)).length : Int) <
          c.remaining ∧
        ∃ next, decodeRecord page (c.advance
          ((recordsFrom page c).records.flatMap (Record.encode c.source.order)).length) =
            .error e next := by
  -- what was read so far is ahead of the cursor, and the rest is ahead of where it leads
  fun_induction recordsFrom page c with
  | case1 c hdone =>
    have hroom := hinside.2
    simp only [List.length_nil] at hroom
    exact ⟨by simp, hinside, show c.remaining = 0 by omega⟩
  | case2 c hmore record next hread rest ih =>
    obtain ⟨hwell, hsize, hahead, rfl⟩ := decodeRecord_eq_ok_iff.mp hread
    obtain ⟨hall, hrest, hend⟩ := ih hahead.advance
    simp only [Cursor.advance_source] at hall hrest hend
    refine ⟨List.forall_mem_cons.mpr ⟨⟨hwell, hsize⟩, hall⟩, ?_, ?_⟩
    · rw [List.flatMap_cons]
      exact Cursor.ahead_append_iff.mpr ⟨hahead, hrest⟩
    · simp only [List.flatMap_cons, List.length_append, ← Cursor.advance_advance]
      have hlet : rest = recordsFrom page (c.advance (record.encode c.source.order).length) := rfl
      rw [hlet]
      split <;> rename_i hfailure <;> rw [hfailure] at hend
      · rw [Cursor.advance_remaining] at hend
        push_cast
        omega
      · rw [Cursor.advance_remaining] at hend
        push_cast
        exact ⟨by omega, hend.2⟩
  | case3 c hmore e next hread =>
    exact ⟨by simp, hinside, Int.not_le.mp hmore, next, (Cursor.advance_zero c).symm ▸ hread⟩

/-- What is decoded, with records in front of it. -/
def Decoded.behind (records : List Record) (d : Decoded) : Decoded :=
  { d with records := records ++ d.records }

theorem Decoded.strict_behind (records : List Record) (d : Decoded) :
    (d.behind records).strict = d.strict.map (records ++ ·) := by
  obtain ⟨found, failure?⟩ := d
  cases failure? <;> rfl

-- What one round of reading does, case by case.
theorem recordsFrom_of_done {page : Int} {c : Cursor} (h : c.remaining ≤ 0) :
    recordsFrom page c = ⟨[], none⟩ := by
  rw [recordsFrom, if_pos h]

theorem recordsFrom_of_ok {page : Int} {c next : Cursor} {r : Record} (h : 0 < c.remaining)
    (hread : decodeRecord page c = .ok r next) :
    recordsFrom page c = (recordsFrom page next).behind [r] := by
  rw [recordsFrom, if_neg (by omega)]
  split <;> rename_i hfound <;> rw [hread] at hfound <;> cases hfound
  rfl

theorem recordsFrom_of_error {page : Int} {c next : Cursor} {e : Error} (h : 0 < c.remaining)
    (hread : decodeRecord page c = .error e next) : recordsFrom page c = ⟨[], some e⟩ := by
  rw [recordsFrom, if_neg (by omega)]
  split <;> rename_i hfound <;> rw [hread] at hfound <;> cases hfound
  rfl

/-- Well-formed records that stand ahead are read first, whatever follows them. -/
theorem recordsFrom_append (page : Int) {c : Cursor} {records : List Record}
    (hwell : ∀ r ∈ records, r.WellFormed ∧ r.size = (r.encode c.source.order).length)
    (hahead : c.Ahead (records.flatMap (Record.encode c.source.order))) :
    recordsFrom page c = (recordsFrom page
      (c.advance (records.flatMap (Record.encode c.source.order)).length)).behind records := by
  induction records generalizing c with
  | nil =>
    rw [List.flatMap_nil, List.length_nil, Cursor.advance_zero]
    rfl
  | cons r records ih =>
    -- a record takes some bytes, so the cursor is not at the end yet
    have hpos := r.length_encode_pos c.source.order
    rw [List.forall_mem_cons] at hwell
    rw [List.flatMap_cons, Cursor.ahead_append_iff] at hahead
    have hroom := hahead.1.2
    have hread : decodeRecord page c = .ok r (c.advance (r.encode c.source.order).length) :=
      decodeRecord_eq_ok_iff.mpr ⟨hwell.1.1, hwell.1.2, hahead.1, rfl⟩
    have hrest := ih (c := c.advance (r.encode c.source.order).length) hwell.2 hahead.2
    rw [recordsFrom_of_ok (by omega) hread, hrest, List.flatMap_cons, List.length_append,
      ← Cursor.advance_advance]
    rfl

-- Records that are well formed and fill the rest of the page are all read.
theorem recordsFrom_of_ahead (page : Int) {c : Cursor} {records : List Record}
    (hwell : ∀ r ∈ records, r.WellFormed ∧ r.size = (r.encode c.source.order).length)
    (hahead : c.Ahead (records.flatMap (Record.encode c.source.order)))
    (hfill : c.remaining = (records.flatMap (Record.encode c.source.order)).length) :
    recordsFrom page c = ⟨records, none⟩ := by
  have hdone : (c.advance (records.flatMap (Record.encode c.source.order)).length).remaining ≤ 0 := by
    rw [Cursor.advance_remaining]
    omega
  rw [recordsFrom_append page hwell hahead, recordsFrom_of_done hdone, Decoded.behind,
    List.append_nil]

theorem recordsFrom_eq_iff {page : Int} {c : Cursor} {records : List Record}
    (hinside : c.Ahead []) :
    recordsFrom page c = ⟨records, none⟩ ↔
      (∀ r ∈ records, r.WellFormed ∧ r.size = (r.encode c.source.order).length) ∧
        c.Ahead (records.flatMap (Record.encode c.source.order)) ∧
        c.remaining = (records.flatMap (Record.encode c.source.order)).length := by
  constructor
  · intro h
    have hspec := recordsFrom_spec page c hinside
    rw [h] at hspec
    exact hspec
  · rintro ⟨hwell, hahead, hfill⟩
    exact recordsFrom_of_ahead page hwell hahead hfill

theorem strict_eq_ok_iff {d : Decoded} {records : List Record} :
    d.strict = .ok records ↔ d = ⟨records, none⟩ := by
  obtain ⟨found, failure?⟩ := d
  cases failure? <;> simp [Decoded.strict]

-- A page whose window lies in the source is read from a cursor at its start.
theorem decodeRange_eq {source : Source} {offset length : Int} (page : Int)
    (h : source.require offset length = .ok ()) :
    decodeRange source offset length page =
      recordsFrom page ⟨source, offset, offset + length⟩ := by
  have hlength := (Source.require_eq_ok_iff.mp h).2.1
  rw [decodeRange, if_neg (by omega), h]

theorem inside_of_require {source : Source} {offset length : Int}
    (h : source.require offset length = .ok ()) :
    Cursor.Ahead ⟨source, offset, offset + length⟩ [] := by
  obtain ⟨hnonneg, hlength, hend⟩ := Source.require_eq_ok_iff.mp h
  refine ⟨Source.holds_iff.mpr ⟨hnonneg, ?_, rfl⟩, ?_⟩
  · simp only [List.length_nil]
    omega
  · simp only [List.length_nil, Cursor.remaining]
    omega

theorem require_of_decodeRange {source : Source} {offset length page : Int}
    {records : List Record} (h : decodeRange source offset length page = ⟨records, none⟩) :
    source.require offset length = .ok () := by
  unfold decodeRange at h
  split at h
  · cases h
  · split at h
    · cases h
    · assumption

/-- A page is decoded iff its bytes are the encodings of well-formed records. -/
theorem decodeRange_eq_ok_iff {source : Source} {offset length page : Int} {records : List Record} :
    (decodeRange source offset length page).strict = .ok records ↔
      (∀ r ∈ records, r.WellFormed ∧ r.size = (r.encode source.order).length) ∧
        source.Holds offset (records.flatMap (Record.encode source.order)) ∧
        length = (records.flatMap (Record.encode source.order)).length := by
  rw [strict_eq_ok_iff]
  constructor
  · intro h
    have hreq := require_of_decodeRange h
    rw [decodeRange_eq page hreq, recordsFrom_eq_iff (inside_of_require hreq)] at h
    obtain ⟨hwell, hahead, hfill⟩ := h
    refine ⟨hwell, hahead.1, ?_⟩
    simp only [Cursor.remaining] at hfill
    omega
  · rintro ⟨hwell, hheld, rfl⟩
    have hreq := Source.require_eq_ok_iff.mpr ⟨hheld.nonneg, Int.natCast_nonneg _, hheld.end_le⟩
    rw [decodeRange_eq page hreq, recordsFrom_eq_iff (inside_of_require hreq)]
    refine ⟨hwell, ⟨hheld, ?_⟩, ?_⟩ <;>
    · simp only [Cursor.remaining]
      omega

/-- Encoding and decoding a page undo each other. Well-formed records, encoded one behind the other
anywhere in a source, are decoded again, each with the size of its encoding; and records that are
decoded are well formed, and their encodings are the bytes of the page. -/
theorem decodeRange_encode (source : Source) (page : Int) :
    (∀ (records : List Record) (before after : List UInt8), (∀ r ∈ records, r.WellFormed) →
      source.toList = before ++ records.flatMap (Record.encode source.order) ++ after →
        (decodeRange source before.length
          (records.flatMap (Record.encode source.order)).length page).strict =
            .ok (records.map (Record.sized source.order))) ∧
    ∀ (offset length : Int) (records : List Record),
      (decodeRange source offset length page).strict = .ok records →
        (∀ r ∈ records, r.WellFormed ∧ r.size = (r.encode source.order).length) ∧
          source.read offset length = .ok (records.flatMap (Record.encode source.order)) := by
  constructor
  · intro records before after hwell hsource
    -- the size of a record is not written
    have hsame : (records.map (Record.sized source.order)).flatMap (Record.encode source.order) =
        records.flatMap (Record.encode source.order) := by
      rw [List.flatMap_map]
      rfl
    rw [decodeRange_eq_ok_iff, hsame]
    refine ⟨?_, ⟨before, after, hsource, rfl⟩, rfl⟩
    rw [List.forall_mem_map]
    exact fun r hr => ⟨(hwell r hr).sized source.order, rfl⟩
  · intro offset length records h
    obtain ⟨hwell, hheld, rfl⟩ := decodeRange_eq_ok_iff.mp h
    exact ⟨hwell, Source.read_eq_ok_iff.mpr ⟨rfl, hheld⟩⟩

/-- A 32-bit offset fixup with a list of two source offsets and an additive, and a 16-bit selector
fixup without an offset. -/
def samplePage : List Record :=
  [⟨⟨0x27, 0x14⟩, [-2, 5], .internal 1 (some 0x12345678), some 7, 0⟩,
    ⟨⟨0x02, 0x40⟩, [3], .internal 0x102 none, none, 0⟩]

/-- The sample behind one other byte, words with the high byte first. -/
def sampleSource : Source where
  buffer := ⟨#[0xaa, 0x27, 0x14, 0x02, 0x01, 0x12, 0x34, 0x56, 0x78, 0x00, 0x07, 0xff, 0xfe, 0x00,
    0x05, 0x02, 0x40, 0x00, 0x03, 0x01, 0x02]⟩
  order := .big

theorem decodeRange_encode_sample :
    (∀ r ∈ samplePage, r.WellFormed) ∧
      sampleSource.toList = [0xaa] ++ samplePage.flatMap (Record.encode .big) ++ [] ∧
      (decodeRange sampleSource 1 20 4).strict = .ok (samplePage.map (Record.sized .big)) ∧
      sampleSource.read 1 20 = .ok (samplePage.flatMap (Record.encode .big)) := by
  have hwell : ∀ r ∈ samplePage, r.WellFormed := by decide
  have hsource : sampleSource.toList = [0xaa] ++ samplePage.flatMap (Record.encode .big) ++ [] := by
    decide
  have hdecode := (decodeRange_encode sampleSource 4).1 samplePage [0xaa] [] hwell hsource
  exact ⟨hwell, hsource, hdecode, ((decodeRange_encode sampleSource 4).2 _ _ _ hdecode).2⟩

end LinearExecutable.Fixup
