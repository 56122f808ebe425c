import Mathlib
import LinearExecutable.Bytes.Layout

/-!
# Packed records, both ways

A layout reads exactly the records that it writes: `Layout.decode?_eq_some_iff` says that the values
decoded from some bytes are the values that fit the fields and whose encoding those bytes are.
Everything that reads a table goes through this one equivalence.
-/

namespace LinearExecutable

/-! ## 1. Signed words -/

namespace Word

theorem bound_pos (width : Nat) : 0 < bound width := by
  induction width with
  | zero => decide
  | succ width ih => unfold bound; omega

/-- The numbers around zero that a word of `width` bytes stands for. -/
def SignedRange (width : Nat) (i : Int) : Prop :=
  -(bound width : Int) ≤ 2 * i ∧ 2 * i < bound width

instance (width : Nat) (i : Int) : Decidable (SignedRange width i) :=
  inferInstanceAs (Decidable (_ ∧ _))

theorem signedRange_toSigned (width n : Nat) : SignedRange width (toSigned width n) := by
  have hpos := bound_pos width
  have hlow := Int.le_bmod (x := n) hpos
  have hhigh := Int.bmod_lt (x := n) hpos
  unfold SignedRange toSigned
  omega

theorem ofSigned_lt (width : Nat) (i : Int) : ofSigned width i < bound width := by
  have hpos : (0 : Int) < bound width := Int.natCast_pos.mpr (bound_pos width)
  have hlow := Int.emod_nonneg i (ne_of_gt hpos)
  have hhigh := Int.emod_lt_of_pos i hpos
  unfold ofSigned
  omega

-- A number in range is read back from the word that stands for it.
theorem toSigned_ofSigned {width : Nat} {i : Int} (h : SignedRange width i) :
    toSigned width (ofSigned width i) = i := by
  have hpos : (0 : Int) < bound width := Int.natCast_pos.mpr (bound_pos width)
  have hres : ((i % (bound width : Int)).toNat : Int) = i % bound width :=
    Int.toNat_of_nonneg (Int.emod_nonneg i (ne_of_gt hpos))
  unfold SignedRange at h
  -- the balanced residue of a residue is that of the number, which is in range already
  rw [toSigned, ofSigned, hres, Int.emod_bmod]
  apply Int.bmod_eq_of_le_mul_two <;> omega

-- A word stands for one number only.
theorem ofSigned_toSigned {width n : Nat} (h : n < bound width) :
    ofSigned width (toSigned width n) = n := by
  rw [ofSigned, toSigned, Int.bmod_emod, Int.emod_eq_of_lt (Int.natCast_nonneg n) (by omega),
    Int.toNat_natCast]

end Word

theorem ByteOrder.word_lt (order : ByteOrder) (bytes : List UInt8) :
    order.word bytes < Word.bound bytes.length := by
  have h := Word.ofLittle_lt (order.arrange bytes)
  rwa [length_arrange] at h

/-! ## 2. What a field can hold -/

namespace Field

/-- The width of each value of a run. -/
def width : Field → Nat
  | .unsigned _ width => width
  | .signed _ width => width
  | .text size => size

/-- The values that stand in a field of this kind. -/
def Admits : Field → Value → Prop
  | .unsigned _ width, .unsigned n => n < Word.bound width
  | .signed _ width, .signed i => Word.SignedRange width i
  | .text size, .bytes b => b.length = size
  | _, _ => False

/-- One value for each field of a run. -/
def Fits (field : Field) (values : List Value) : Prop :=
  values.length = field.count ∧ ∀ v ∈ values, field.Admits v

/-- The bytes of a run with the given values. -/
def encode (order : ByteOrder) (field : Field) (values : List Value) : List UInt8 :=
  values.flatMap (Value.encode order field.width)

theorem widths_eq (field : Field) : field.widths = List.replicate field.count field.width := by
  cases field <;> rfl

theorem size_eq (field : Field) : field.size = field.count * field.width := by
  cases field <;> simp [size, count, width]

theorem length_encode_of_admits {field : Field} {v : Value} (order : ByteOrder)
    (h : field.Admits v) : (v.encode order field.width).length = field.width := by
  cases field <;> cases v <;> simp_all [Admits, Value.encode, width]

theorem length_encode {field : Field} {values : List Value} (order : ByteOrder)
    (h : field.Fits values) : (field.encode order values).length = field.size := by
  rw [size_eq, ← h.1, encode, List.length_flatMap,
    List.map_congr_left fun v hv => length_encode_of_admits order (h.2 v hv)]
  simp

/-! ## 3. Reading back a run -/

-- Pieces of one width are what the bytes are put together from.
theorem pieces?_eq_some_iff {width count : Nat} {bytes : List UInt8} {pieces : List (List UInt8)} :
    pieces? width count bytes = some pieces ↔
      pieces.length = count ∧ (∀ p ∈ pieces, p.length = width) ∧ bytes = pieces.flatten := by
  -- the bytes that are left change with the count
  induction count generalizing bytes pieces with
  | zero =>
    cases bytes with
    | nil =>
      simp only [pieces?, Option.some.injEq, List.length_eq_zero_iff]
      constructor
      · rintro rfl
        simp
      · rintro ⟨rfl, -, -⟩
        rfl
    | cons b rest =>
      simp only [pieces?, reduceCtorEq, List.length_eq_zero_iff, false_iff, not_and]
      rintro rfl
      simp
  | succ count ih =>
    simp only [pieces?]
    constructor
    · intro h
      split at h
      · rename_i hlen
        obtain ⟨others, hothers, rfl⟩ := Option.map_eq_some_iff.mp h
        obtain ⟨hcount, hwidth, hrest⟩ := ih.mp hothers
        refine ⟨by simp [hcount], ?_, ?_⟩
        · intro p hp
          rcases List.mem_cons.mp hp with rfl | hp
          · exact hlen
          · exact hwidth p hp
        · rw [List.flatten_cons, ← hrest, List.take_append_drop]
      · contradiction
    · rintro ⟨hcount, hwidth, rfl⟩
      cases pieces with
      | nil => simp at hcount
      | cons p others =>
        have hp : p.length = width := hwidth p (by simp)
        have hothers : pieces? width count others.flatten = some others :=
          ih.mpr ⟨by simpa using hcount, fun q hq => hwidth q (by simp [hq]), rfl⟩
        rw [List.flatten_cons, List.take_left' hp, List.drop_left' hp, if_pos hp, hothers]
        rfl

-- A run of words whose values are read by `get` and written by `put` one word at a time.
private theorem words_eq_some_iff {width count : Nat} {bytes : List UInt8} {values : List Value}
    {order : ByteOrder} (field : Field) (get : List UInt8 → Value) (hcount : field.count = count)
    (hget : ∀ p : List UInt8, p.length = width →
      field.Admits (get p) ∧ (get p).encode order field.width = p)
    (hput : ∀ v, field.Admits v →
      (v.encode order field.width).length = width ∧ get (v.encode order field.width) = v) :
    (pieces? width count bytes).map (·.map get) = some values ↔
      field.Fits values ∧ bytes = field.encode order values := by
  simp only [Option.map_eq_some_iff, pieces?_eq_some_iff, Fits, encode, hcount]
  constructor
  · rintro ⟨pieces, ⟨hlen, hwidth, rfl⟩, rfl⟩
    refine ⟨⟨by simpa using hlen, ?_⟩, ?_⟩
    · intro v hv
      obtain ⟨p, hp, rfl⟩ := List.mem_map.mp hv
      exact (hget p (hwidth p hp)).1
    · rw [List.flatMap_map, List.flatMap_def,
        List.map_congr_left fun p hp => (hget p (hwidth p hp)).2, List.map_id']
  · rintro ⟨⟨hlen, hadmits⟩, rfl⟩
    refine ⟨values.map (Value.encode order field.width), ⟨by simpa using hlen, ?_, rfl⟩, ?_⟩
    · intro p hp
      obtain ⟨v, hv, rfl⟩ := List.mem_map.mp hp
      exact (hput v (hadmits v hv)).1
    · rw [List.map_map]
      exact (List.map_congr_left fun v hv => (hput v (hadmits v hv)).2).trans (List.map_id values)

/-- A field reads exactly the runs that it writes. -/
theorem decode?_eq_some_iff {order : ByteOrder} {field : Field} {bytes : List UInt8}
    {values : List Value} :
    field.decode? order bytes = some values ↔
      field.Fits values ∧ bytes = field.encode order values := by
  -- the two kinds of words differ only in how one word is read and written
  cases field with
  | unsigned count width =>
    apply words_eq_some_iff (.unsigned count width) (fun p => .unsigned (order.word p)) rfl
    · rintro p rfl
      exact ⟨order.word_lt p, order.wordBytes_word p⟩
    · intro v hv
      cases v with
      | unsigned n => exact ⟨order.length_wordBytes _ _, congrArg _ (order.word_wordBytes hv)⟩
      | signed _ | bytes _ => exact hv.elim
  | signed count width =>
    apply words_eq_some_iff (.signed count width)
      (fun p => .signed (Word.toSigned width (order.word p))) rfl
    · rintro p rfl
      refine ⟨Word.signedRange_toSigned _ _, ?_⟩
      show order.wordBytes p.length (Word.ofSigned p.length (Word.toSigned p.length _)) = p
      rw [Word.ofSigned_toSigned (order.word_lt p), order.wordBytes_word]
    · intro v hv
      cases v with
      | signed i =>
        refine ⟨order.length_wordBytes _ _, ?_⟩
        show Value.signed (Word.toSigned width (order.word
          (order.wordBytes width (Word.ofSigned width i)))) = .signed i
        rw [order.word_wordBytes (Word.ofSigned_lt width i), Word.toSigned_ofSigned hv]
      | unsigned _ | bytes _ => exact hv.elim
  | text size =>
    simp only [decode?, Fits, count]
    constructor
    · intro h
      split at h
      · cases h
        simp_all [Admits, encode, Value.encode]
      · contradiction
    · rintro ⟨⟨hlen, hadmits⟩, rfl⟩
      obtain ⟨v, rfl⟩ := List.length_eq_one_iff.mp hlen
      have hv := hadmits v (by simp)
      cases v with
      | bytes b =>
        have hb : b.length = size := hv
        simp [encode, Value.encode, hb]
      | unsigned _ | signed _ => exact hv.elim

theorem exists_pieces? {width count : Nat} (bytes : List UInt8)
    (h : bytes.length = count * width) : ∃ pieces, pieces? width count bytes = some pieces := by
  induction count generalizing bytes with
  | zero =>
    obtain rfl : bytes = [] := List.length_eq_zero_iff.mp (by omega)
    exact ⟨[], rfl⟩
  | succ count ih =>
    rw [Nat.succ_mul] at h
    obtain ⟨others, hothers⟩ := ih (bytes.drop width) (by rw [List.length_drop]; omega)
    refine ⟨bytes.take width :: others, ?_⟩
    rw [pieces?, if_pos (by rw [List.length_take]; omega), hothers]
    rfl

-- A run can be read from any bytes of its size.
theorem exists_decode? (order : ByteOrder) {field : Field} (bytes : List UInt8)
    (h : bytes.length = field.size) : ∃ values, field.decode? order bytes = some values := by
  cases field with
  | unsigned count width | signed count width =>
    obtain ⟨pieces, hpieces⟩ := exists_pieces? bytes h
    exact ⟨_, by rw [decode?, hpieces]; rfl⟩
  | text size => exact ⟨_, if_pos h⟩

end Field

/-! ## 4. Layouts -/

namespace Layout

/-- One value for each field of a layout. -/
def Fits : Layout → List Value → Prop
  | [], values => values = []
  | field :: rest, values =>
    field.Fits (values.take field.count) ∧ Fits rest (values.drop field.count)

theorem fits_cons_iff {field : Field} {rest : Layout} {values : List Value} :
    Fits (field :: rest) values ↔
      ∃ first others, values = first ++ others ∧ field.Fits first ∧ Fits rest others := by
  constructor
  · rintro ⟨hfirst, hothers⟩
    exact ⟨_, _, (List.take_append_drop _ _).symm, hfirst, hothers⟩
  · rintro ⟨first, others, rfl, hfirst, hothers⟩
    rw [Fits, List.take_left' hfirst.1, List.drop_left' hfirst.1]
    exact ⟨hfirst, hothers⟩

private theorem flatMap_zip_replicate (order : ByteOrder) (width : Nat) (values : List Value) :
    ((List.replicate values.length width).zip values).flatMap
      (fun (width, value) => value.encode order width) =
        values.flatMap (Value.encode order width) := by
  induction values with
  | nil => rfl
  | cons v values ih =>
    rw [List.length_cons, List.replicate_succ, List.zip_cons_cons, List.flatMap_cons,
      List.flatMap_cons, ih]

-- The encoding of a record starts with that of its first run.
theorem encode_cons {order : ByteOrder} {field : Field} (rest : Layout) {first : List Value}
    (others : List Value) (h : first.length = field.count) :
    encode order (field :: rest) (first ++ others) =
      field.encode order first ++ encode order rest others := by
  rw [encode, encode, List.flatMap_cons, Field.widths_eq, ← h,
    List.zip_append (by simp), List.flatMap_append, flatMap_zip_replicate, Field.encode]

theorem length_encode {order : ByteOrder} {layout : Layout} {values : List Value}
    (h : layout.Fits values) : (layout.encode order values).length = layout.size := by
  induction layout generalizing values with
  | nil => simp [encode, size]
  | cons field rest ih =>
    obtain ⟨first, others, rfl, hfirst, hothers⟩ := fits_cons_iff.mp h
    rw [encode_cons rest others hfirst.1, List.length_append, Field.length_encode order hfirst,
      ih hothers, size]

/-- A layout reads exactly the records that it writes. -/
theorem decode?_eq_some_iff {order : ByteOrder} {layout : Layout} {bytes : List UInt8}
    {values : List Value} :
    layout.decode? order bytes = some values ↔
      layout.Fits values ∧ bytes = layout.encode order values := by
  induction layout generalizing bytes values with
  | nil => cases bytes <;> simp [decode?, Fits, encode, eq_comm]
  | cons field rest ih =>
    -- the first field takes its bytes from the front, the rest reads what it leaves
    simp only [decode?, Option.bind_eq_bind, Option.bind_eq_some_iff, Option.some.injEq,
      Field.decode?_eq_some_iff, ih, fits_cons_iff]
    constructor
    · rintro ⟨first, ⟨hfirst, htake⟩, others, ⟨hothers, hdrop⟩, rfl⟩
      refine ⟨⟨first, others, rfl, hfirst, hothers⟩, ?_⟩
      rw [encode_cons rest others hfirst.1, ← htake, ← hdrop, List.take_append_drop]
    · rintro ⟨⟨first, others, rfl, hfirst, hothers⟩, rfl⟩
      have hsize := Field.length_encode order hfirst
      rw [encode_cons rest others hfirst.1]
      exact ⟨first, ⟨hfirst, List.take_left' hsize⟩, others, ⟨hothers, List.drop_left' hsize⟩, rfl⟩

-- A record can be read from any bytes of its size.
theorem exists_decode? (order : ByteOrder) {layout : Layout} (bytes : List UInt8)
    (h : bytes.length = layout.size) : ∃ values, layout.decode? order bytes = some values := by
  induction layout generalizing bytes with
  | nil =>
    obtain rfl : bytes = [] := List.length_eq_zero_iff.mp h
    exact ⟨[], rfl⟩
  | cons field rest ih =>
    rw [size] at h
    have hfront : (bytes.take field.size).length = field.size := by
      rw [List.length_take]
      omega
    obtain ⟨first, hfirst⟩ := Field.exists_decode? order _ hfront
    obtain ⟨others, hothers⟩ := ih (bytes.drop field.size) (by rw [List.length_drop]; omega)
    refine ⟨first ++ others, ?_⟩
    rw [decode?, hfirst, hothers]
    rfl

/-! ## 5. Runs of words -/

theorem fits_singleton_iff {field : Field} {values : List Value} :
    Fits [field] values ↔ field.Fits values := by
  rw [fits_cons_iff]
  constructor
  · rintro ⟨first, others, rfl, hfirst, rfl⟩
    rwa [List.append_nil]
  · intro h
    exact ⟨values, [], (List.append_nil _).symm, h, rfl⟩

theorem encode_singleton {order : ByteOrder} {field : Field} {values : List Value}
    (h : values.length = field.count) :
    encode order [field] values = field.encode order values := by
  have hsplit : encode order [field] (values ++ []) = _ := encode_cons [] [] h
  rwa [List.append_nil, show encode order [] [] = [] from rfl, List.append_nil] at hsplit

-- Values that all come from one constructor are a list under it.
private theorem exists_eq_map {α : Type} {p : α → Prop} {wrap : α → Value} {values : List Value}
    (h : ∀ v ∈ values, ∃ a, p a ∧ v = wrap a) :
    ∃ as : List α, (∀ a ∈ as, p a) ∧ values = as.map wrap := by
  induction values with
  | nil => exact ⟨[], by simp, rfl⟩
  | cons v values ih =>
    obtain ⟨a, ha, rfl⟩ := h v (by simp)
    obtain ⟨as, has, rfl⟩ := ih fun w hw => h w (by simp [hw])
    exact ⟨a :: as, List.forall_mem_cons.mpr ⟨ha, has⟩, rfl⟩

-- The values of a run of unsigned words are numbers in range.
theorem fits_unsigned_iff {count width : Nat} {values : List Value} :
    Fits [.unsigned count width] values ↔
      ∃ ns : List Nat, ns.length = count ∧ (∀ n ∈ ns, n < Word.bound width) ∧
        values = ns.map .unsigned := by
  rw [fits_singleton_iff]
  constructor
  · rintro ⟨hlen, hadmits⟩
    obtain ⟨ns, hbound, rfl⟩ := exists_eq_map fun v hv => by
      have hv' := hadmits v hv
      cases v with
      | unsigned n => exact ⟨n, hv', rfl⟩
      | signed _ | bytes _ => exact hv'.elim
    exact ⟨ns, (List.length_map _).symm.trans hlen, hbound, rfl⟩
  · rintro ⟨ns, rfl, hbound, rfl⟩
    exact ⟨List.length_map _, List.forall_mem_map.mpr hbound⟩

-- The values of a run of signed words are numbers in range.
theorem fits_signed_iff {count width : Nat} {values : List Value} :
    Fits [.signed count width] values ↔
      ∃ is : List Int, is.length = count ∧ (∀ i ∈ is, Word.SignedRange width i) ∧
        values = is.map .signed := by
  rw [fits_singleton_iff]
  constructor
  · rintro ⟨hlen, hadmits⟩
    obtain ⟨is, hrange, rfl⟩ := exists_eq_map fun v hv => by
      have hv' := hadmits v hv
      cases v with
      | signed i => exact ⟨i, hv', rfl⟩
      | unsigned _ | bytes _ => exact hv'.elim
    exact ⟨is, (List.length_map _).symm.trans hlen, hrange, rfl⟩
  · rintro ⟨is, rfl, hrange, rfl⟩
    exact ⟨List.length_map _, List.forall_mem_map.mpr hrange⟩

theorem encode_unsigned (order : ByteOrder) (width : Nat) (ns : List Nat) :
    encode order [.unsigned ns.length width] (ns.map .unsigned) =
      ns.flatMap (order.wordBytes width) := by
  rw [encode_singleton (List.length_map _), Field.encode, List.flatMap_map]
  rfl

theorem encode_signed (order : ByteOrder) (width : Nat) (is : List Int) :
    encode order [.signed is.length width] (is.map .signed) =
      is.flatMap fun i => order.wordBytes width (Word.ofSigned width i) := by
  rw [encode_singleton (List.length_map _), Field.encode, List.flatMap_map]
  rfl

theorem fits_word_iff {width : Nat} {values : List Value} :
    Fits [.unsigned 1 width] values ↔ ∃ n, n < Word.bound width ∧ values = [.unsigned n] := by
  rw [fits_unsigned_iff]
  constructor
  · rintro ⟨ns, hlen, hbound, rfl⟩
    obtain ⟨n, rfl⟩ := List.length_eq_one_iff.mp hlen
    exact ⟨n, hbound n (by simp), rfl⟩
  · rintro ⟨n, hn, rfl⟩
    exact ⟨[n], rfl, List.forall_mem_singleton.mpr hn, rfl⟩

-- A layout that starts with one word.
theorem fits_word_cons_iff {width : Nat} {rest : Layout} {values : List Value} :
    Fits (.unsigned 1 width :: rest) values ↔
      ∃ n others, n < Word.bound width ∧ Fits rest others ∧ values = .unsigned n :: others := by
  rw [fits_cons_iff]
  simp only [← fits_singleton_iff, fits_word_iff]
  constructor
  · rintro ⟨_, others, rfl, ⟨n, hn, rfl⟩, hothers⟩
    exact ⟨n, others, hn, hothers, rfl⟩
  · rintro ⟨n, others, hn, hothers, rfl⟩
    exact ⟨[.unsigned n], others, rfl, ⟨n, hn, rfl⟩, hothers⟩

theorem encode_word_cons (order : ByteOrder) (width n : Nat) (rest : Layout)
    (others : List Value) :
    encode order (.unsigned 1 width :: rest) (.unsigned n :: others) =
      order.wordBytes width n ++ encode order rest others := rfl

theorem encode_word (order : ByteOrder) (width n : Nat) :
    encode order [.unsigned 1 width] [.unsigned n] = order.wordBytes width n :=
  (encode_unsigned order width [n]).trans (List.flatMap_singleton _ _)

end Layout

end LinearExecutable
