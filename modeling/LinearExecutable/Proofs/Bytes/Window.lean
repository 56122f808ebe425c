import LinearExecutable.NameTable
import LinearExecutable.Proofs.Bytes.Packing

/-!
# Windows of a source

`Source.Holds` says that some bytes stand in a source from an offset on. Every read succeeds exactly
on the bytes that are held there: a record is read iff its encoding is held, a table iff the
encodings of its records are, one behind the other, and a counted string iff it is held with its
length in front.
-/

namespace LinearExecutable

/-! ## 1. Outcomes one after another -/

theorem Except.bind_eq_ok_iff {ε α β : Type} {x : Except ε α} {f : α → Except ε β} {b : β} :
    (x >>= f) = .ok b ↔ ∃ a, x = .ok a ∧ f a = .ok b := by
  cases x with
  | error e => simp [bind, Except.bind]
  | ok a => simp [bind, Except.bind]

theorem Except.bind_ok {ε α β : Type} (a : α) (f : α → Except ε β) :
    (Except.ok a >>= f) = f a := rfl

-- A step succeeds if what it starts with does and it does from there on.
theorem Except.exists_bind_ok {ε α β : Type} {x : Except ε α} {f : α → Except ε β}
    (hx : ∃ a, x = .ok a) (hf : ∀ a, ∃ b, f a = .ok b) : ∃ b, (x >>= f) = .ok b := by
  obtain ⟨a, rfl⟩ := hx
  exact hf a

-- A run on a fixed input is evaluated to see what it comes to.
theorem Except.exists_eq_ok {ε α : Type} {x : Except ε α} {p : α → Prop} [DecidablePred p]
    (h : x.toOption.any (fun a => p a) = true) : ∃ a, x = .ok a ∧ p a := by
  cases x with
  | error e => contradiction
  | ok a => exact ⟨a, rfl, of_decide_eq_true h⟩

theorem Except.mapM_eq_ok_iff {ε α β : Type} {f : α → Except ε β} {xs : List α} {ys : List β} :
    xs.mapM f = .ok ys ↔ List.Forall₂ (fun x y => f x = .ok y) xs ys := by
  induction xs generalizing ys with
  | nil => simp [pure, Except.pure, eq_comm]
  | cons x xs ih =>
    simp only [List.mapM_cons, Except.bind_eq_ok_iff, ih, List.forall₂_cons_left_iff]
    constructor
    · rintro ⟨y, hy, ys', hys, h⟩
      cases h
      exact ⟨y, ys', hy, hys, rfl⟩
    · rintro ⟨y, ys', hy, hys, rfl⟩
      exact ⟨y, hy, ys', hys, rfl⟩

-- The outcome of an element stands where the element does.
theorem Except.getElem?_of_mapM {ε α β : Type} {f : α → Except ε β} {xs : List α} {ys : List β}
    (h : xs.mapM f = .ok ys) {i : Nat} {x : α} (hx : xs[i]? = some x) :
    ∃ y, ys[i]? = some y ∧ f x = .ok y := by
  have hall := mapM_eq_ok_iff.mp h
  clear h
  -- both lists move on together, and the position with them
  induction hall generalizing i with
  | nil => contradiction
  | @cons x' y' xs ys hhead _ ih =>
    cases i with
    | zero =>
      cases hx
      exact ⟨y', rfl, hhead⟩
    | succ i => exact ih hx

-- An outcome comes from the element that stands where it does.
theorem Except.getElem?_of_mapM_right {ε α β : Type} {f : α → Except ε β} {xs : List α}
    {ys : List β} (h : xs.mapM f = .ok ys) {i : Nat} {y : β} (hy : ys[i]? = some y) :
    ∃ x, xs[i]? = some x ∧ f x = .ok y := by
  obtain ⟨hi, -⟩ := List.getElem?_eq_some_iff.mp hy
  rw [← (mapM_eq_ok_iff.mp h).length_eq] at hi
  have hx := List.getElem?_eq_getElem hi
  obtain ⟨y', hy', hfx⟩ := getElem?_of_mapM h hx
  rw [hy, Option.some.injEq] at hy'
  exact ⟨_, hx, hy' ▸ hfx⟩

theorem exists_left_of_forall₂ {α β : Type} {related : α → β → Prop} {xs : List α} {ys : List β}
    (h : List.Forall₂ related xs ys) {y : β} (hy : y ∈ ys) : ∃ x ∈ xs, related x y := by
  induction h with
  | nil => contradiction
  | @cons x y' xs ys hx _ ih =>
    rcases List.mem_cons.mp hy with rfl | hy
    · exact ⟨x, List.mem_cons_self, hx⟩
    · obtain ⟨x', hx', hrelated⟩ := ih hy
      exact ⟨x', List.mem_cons_of_mem _ hx', hrelated⟩

-- Mapping succeeds where every element does, and keeps what is known of the outcomes.
theorem Except.exists_mapM_eq_ok {ε α β : Type} {f : α → Except ε β} {related : α → β → Prop}
    {xs : List α} (h : ∀ x ∈ xs, ∃ y, f x = .ok y ∧ related x y) :
    ∃ ys, xs.mapM f = .ok ys ∧ List.Forall₂ related xs ys := by
  induction xs with
  | nil => exact ⟨[], rfl, .nil⟩
  | cons x xs ih =>
    rw [List.forall_mem_cons] at h
    obtain ⟨y, hy, hrelated⟩ := h.1
    obtain ⟨ys, hys, hall⟩ := ih h.2
    refine ⟨y :: ys, ?_, .cons hrelated hall⟩
    rw [List.mapM_cons, hy, bind_ok, hys]
    rfl

-- Mapping succeeds where every element does.
theorem Except.exists_mapM_ok {ε α β : Type} {f : α → Except ε β} {xs : List α}
    (h : ∀ x ∈ xs, ∃ y, f x = .ok y) : ∃ ys, xs.mapM f = .ok ys := by
  obtain ⟨ys, hys, -⟩ := exists_mapM_eq_ok fun x hx => (h x hx).imp fun _ hy => ⟨hy, hy⟩
  exact ⟨ys, hys⟩

-- Mapping fails on the failure of an element.
theorem Except.exists_of_mapM_eq_error {ε α β : Type} {f : α → Except ε β} {xs : List α} {e : ε}
    (h : xs.mapM f = .error e) : ∃ x ∈ xs, f x = .error e := by
  induction xs with
  | nil => contradiction
  | cons x xs ih =>
    rw [List.mapM_cons] at h
    cases hx : f x with
    | error e' =>
      rw [hx] at h
      cases h
      exact ⟨x, by simp, hx⟩
    | ok y =>
      rw [hx, bind_ok] at h
      cases hxs : xs.mapM f with
      | error e' =>
        rw [hxs] at h
        cases h
        obtain ⟨x', hmem, hx'⟩ := ih hxs
        exact ⟨x', by simp [hmem], hx'⟩
      | ok ys =>
        rw [hxs] at h
        contradiction

-- Mapping succeeds iff it does on every element.
theorem Option.mapM_eq_some_iff {α β : Type} {f : α → Option β} {xs : List α} {ys : List β} :
    xs.mapM f = some ys ↔ List.Forall₂ (fun x y => f x = some y) xs ys := by
  induction xs generalizing ys with
  | nil => simp [eq_comm]
  | cons x xs ih =>
    simp only [List.mapM_cons, Option.bind_eq_bind, Option.bind_eq_some_iff, ih,
      List.forall₂_cons_left_iff, Option.pure_def, Option.some.injEq]
    grind

theorem Value.mapM_nat? (words : List Nat) : (words.map unsigned).mapM nat? = some words := by
  rw [Option.mapM_eq_some_iff, List.forall₂_map_left_iff]
  exact List.forall₂_same.mpr fun _ _ => rfl

theorem ByteOrder.wordBytes_one (order : ByteOrder) (n : Nat) :
    order.wordBytes 1 n = [UInt8.ofNat n] := by
  cases order <;> rfl

namespace Source

/-! ## 2. Bytes that a source holds -/

/-- The given bytes stand in the source from an offset on. -/
def Holds (source : Source) (offset : Int) (bytes : List UInt8) : Prop :=
  ∃ before after, source.toList = before ++ bytes ++ after ∧ (before.length : Int) = offset

theorem length_toList (source : Source) : source.toList.length = source.size := by
  rw [toList, Array.length_toList]
  rfl

theorem segment_eq (source : Source) (start stop : Nat) :
    source.segment start stop = (source.toList.drop start).take (stop - start) := by
  rw [segment, ByteArray.data_extract, Array.toList_extract, List.extract_eq_take_drop]
  rfl

theorem holds_iff {source : Source} {offset : Int} {bytes : List UInt8} :
    source.Holds offset bytes ↔
      0 ≤ offset ∧ offset + bytes.length ≤ source.size ∧
        (source.toList.drop offset.toNat).take bytes.length = bytes := by
  constructor
  · rintro ⟨before, after, h, rfl⟩
    have hlen := congrArg List.length h
    rw [length_toList] at hlen
    simp only [List.length_append] at hlen
    refine ⟨by omega, by omega, ?_⟩
    rw [h, Int.toNat_natCast, List.append_assoc, List.drop_left, List.take_left]
  · rintro ⟨hnonneg, hle, h⟩
    refine ⟨source.toList.take offset.toNat,
      (source.toList.drop offset.toNat).drop bytes.length, ?_, ?_⟩
    · have hrest := List.take_append_drop bytes.length (source.toList.drop offset.toNat)
      rw [h] at hrest
      rw [List.append_assoc, hrest, List.take_append_drop]
    · rw [List.length_take, length_toList]
      omega

theorem Holds.nonneg {source : Source} {offset : Int} {bytes : List UInt8}
    (h : source.Holds offset bytes) : 0 ≤ offset :=
  (holds_iff.mp h).1

theorem Holds.end_le {source : Source} {offset : Int} {bytes : List UInt8}
    (h : source.Holds offset bytes) : offset + bytes.length ≤ source.size :=
  (holds_iff.mp h).2.1

-- Two runs of bytes stand one behind the other.
theorem holds_append_iff {source : Source} {offset : Int} {a b : List UInt8} :
    source.Holds offset (a ++ b) ↔ source.Holds offset a ∧ source.Holds (offset + a.length) b := by
  constructor
  · rintro ⟨before, after, h, rfl⟩
    exact ⟨⟨before, b ++ after, by rw [h]; simp, rfl⟩,
      ⟨before ++ a, after, by rw [h]; simp, by simp⟩⟩
  · rintro ⟨ha, hb⟩
    have hnonneg := ha.nonneg
    rw [holds_iff] at ha hb ⊢
    refine ⟨hnonneg, by rw [List.length_append]; omega, ?_⟩
    -- the second run starts where the first one ends, so the window of both is split there
    have hstart : (offset + a.length).toNat = offset.toNat + a.length := by omega
    rw [List.length_append, List.take_add, ha.2.2, List.drop_drop, ← hstart, hb.2.2]

-- What is held at an offset is decided by its length.
theorem Holds.eq {source : Source} {offset : Int} {a b : List UInt8} (ha : source.Holds offset a)
    (hb : source.Holds offset b) (hlen : a.length = b.length) : a = b := by
  rw [← (holds_iff.mp ha).2.2, ← (holds_iff.mp hb).2.2, hlen]

-- A window inside the source holds something.
theorem exists_holds {source : Source} {offset : Int} (size : Nat) (hnonneg : 0 ≤ offset)
    (hle : offset + size ≤ source.size) :
    ∃ bytes, bytes.length = size ∧ source.Holds offset bytes := by
  have hlen : ((source.toList.drop offset.toNat).take size).length = size := by
    rw [List.length_take, List.length_drop, length_toList]
    omega
  exact ⟨_, hlen, holds_iff.mpr ⟨hnonneg, by rw [hlen]; exact hle, by rw [hlen]⟩⟩

theorem place_eq {source : Source} {i : Int} (hnonneg : 0 ≤ i) (hle : i ≤ source.size) :
    source.place i = i.toNat := by
  rw [place, if_neg (by omega), Nat.min_eq_left (by omega)]

-- A signature that is held is found.
theorem signatureAt_eq {source : Source} {offset : Int} {bytes : List UInt8}
    (h : source.Holds offset bytes) (hlen : bytes.length = 2) :
    source.signatureAt offset = bytes := by
  have hnonneg := h.nonneg
  have hle := h.end_le
  rw [hlen] at hle
  push_cast at hle
  rw [signatureAt, slice, place_eq hnonneg (by omega), place_eq (by omega) hle, segment_eq,
    ← (holds_iff.mp h).2.2, hlen]
  congr 1
  omega

theorem holds_withOrder_iff {source : Source} {order : ByteOrder} {offset : Int}
    {bytes : List UInt8} :
    (source.withOrder order).Holds offset bytes ↔ source.Holds offset bytes :=
  Iff.rfl

/-! ## 3. Reading -/

theorem require_eq_ok_iff {source : Source} {offset size : Int} :
    source.require offset size = .ok () ↔
      0 ≤ offset ∧ 0 ≤ size ∧ offset + size ≤ source.size := by
  refine ⟨ok_of_require, fun h => ?_⟩
  rw [require, if_neg (by omega)]

theorem require_eq_error {source : Source} {offset size : Int}
    (h : ¬(0 ≤ offset ∧ 0 ≤ size ∧ offset + size ≤ source.size)) :
    source.require offset size = .error (.truncated (.window size offset source.size)) := by
  rw [require, if_pos (by omega)]

theorem read_eq_error {source : Source} {offset size : Int}
    (h : ¬(0 ≤ offset ∧ 0 ≤ size ∧ offset + size ≤ source.size)) :
    source.read offset size = .error (.truncated (.window size offset source.size)) := by
  rw [read, require_eq_error h]
  rfl

/-- A read returns the bytes that are held in its window. -/
theorem read_eq_ok_iff {source : Source} {offset size : Int} {bytes : List UInt8} :
    source.read offset size = .ok bytes ↔
      (bytes.length : Int) = size ∧ source.Holds offset bytes := by
  rw [read, Except.bind_eq_ok_iff]
  constructor
  · rintro ⟨_, hreq, hread⟩
    obtain ⟨hnonneg, hsize, hle⟩ := require_eq_ok_iff.mp hreq
    -- the window is inside, so it holds something, and that is the segment that was read
    obtain ⟨held, hlen, hheld⟩ :=
      exists_holds size.toNat hnonneg (by omega : offset + size.toNat ≤ source.size)
    have hbytes : source.segment offset.toNat (offset + size).toNat = held := by
      rw [segment_eq, ← (holds_iff.mp hheld).2.2, hlen]
      congr 1
      omega
    cases hread
    rw [hbytes]
    exact ⟨by omega, hheld⟩
  · rintro ⟨rfl, hheld⟩
    have hnonneg := hheld.nonneg
    refine ⟨(), require_eq_ok_iff.mpr ⟨hnonneg, by omega, hheld.end_le⟩, ?_⟩
    rw [segment_eq, show (offset + bytes.length).toNat - offset.toNat = bytes.length by omega,
      (holds_iff.mp hheld).2.2]
    rfl

/-- A record is read iff the source holds its encoding. -/
theorem unpack_eq_ok_iff {source : Source} {layout : Layout} {offset : Int} {values : List Value} :
    source.unpack layout offset = .ok values ↔
      layout.Fits values ∧ source.Holds offset (layout.encode source.order values) := by
  rw [unpack, Except.bind_eq_ok_iff]
  constructor
  · rintro ⟨bytes, hread, hdecode⟩
    split at hdecode
    · rename_i found hfound
      cases hdecode
      obtain ⟨hfits, rfl⟩ := Layout.decode?_eq_some_iff.mp hfound
      exact ⟨hfits, (read_eq_ok_iff.mp hread).2⟩
    · contradiction
  · rintro ⟨hfits, hheld⟩
    refine ⟨_, read_eq_ok_iff.mpr ⟨by rw [Layout.length_encode hfits], hheld⟩, ?_⟩
    rw [Layout.decode?_eq_some_iff.mpr ⟨hfits, rfl⟩]

-- A record is read wherever there is room for it.
theorem exists_unpack (source : Source) (layout : Layout) {offset : Int} (hnonneg : 0 ≤ offset)
    (hroom : offset + layout.size ≤ source.size) :
    ∃ values, source.unpack layout offset = .ok values := by
  obtain ⟨bytes, hlen, hheld⟩ := exists_holds layout.size hnonneg hroom
  obtain ⟨values, hvalues⟩ := Layout.exists_decode? source.order bytes hlen
  obtain ⟨hfits, rfl⟩ := Layout.decode?_eq_some_iff.mp hvalues
  exact ⟨values, unpack_eq_ok_iff.mpr ⟨hfits, hheld⟩⟩

-- A record is refused only where there is no room for it.
theorem unpack_eq_error {source : Source} {layout : Layout} {offset : Int} {e : Error}
    (h : source.unpack layout offset = .error e) :
    (offset < 0 ∨ source.size < offset + layout.size) ∧
      e = .truncated (.window layout.size offset source.size) := by
  by_cases hroom : 0 ≤ offset ∧ offset + layout.size ≤ source.size
  · obtain ⟨values, hvalues⟩ := source.exists_unpack layout hroom.1 hroom.2
    rw [hvalues] at h
    contradiction
  · rw [unpack, read_eq_error (by omega)] at h
    cases h
    exact ⟨by omega, rfl⟩

/-! ## 4. Tables -/

theorem chunks_flatten {size : Nat} {pieces : List (List UInt8)}
    (h : ∀ p ∈ pieces, p.length = size) : chunks size pieces.length pieces.flatten = pieces := by
  induction pieces with
  | nil => rfl
  | cons p pieces ih =>
    have hp := h p (by simp)
    rw [List.length_cons, List.flatten_cons, chunks, List.take_left' hp, List.drop_left' hp,
      ih fun q hq => h q (by simp [hq])]

theorem flatten_chunks {size count : Nat} {bytes : List UInt8} (h : bytes.length = size * count) :
    (chunks size count bytes).flatten = bytes := by
  induction count generalizing bytes with
  | zero => simpa [chunks, eq_comm] using h
  | succ count ih =>
    rw [chunks, List.flatten_cons, ih (by rw [List.length_drop, h, Nat.mul_succ]; omega),
      List.take_append_drop]

theorem length_chunks (size count : Nat) (bytes : List UInt8) :
    (chunks size count bytes).length = count := by
  induction count generalizing bytes with
  | zero => rfl
  | succ count ih => rw [chunks, List.length_cons, ih]

theorem forall₂_decode?_iff {order : ByteOrder} {layout : Layout} {pieces : List (List UInt8)}
    {records : List (List Value)} :
    List.Forall₂ (fun piece values => layout.decode? order piece = some values) pieces records ↔
      (∀ r ∈ records, layout.Fits r) ∧ pieces = records.map (layout.encode order) := by
  induction records generalizing pieces with
  | nil => simp
  | cons r records ih =>
    rw [List.forall₂_cons_right_iff, List.forall_mem_cons, List.map_cons]
    constructor
    · rintro ⟨p, rest, hp, hrest, rfl⟩
      obtain ⟨hfits, rfl⟩ := Layout.decode?_eq_some_iff.mp hp
      obtain ⟨hall, rfl⟩ := ih.mp hrest
      exact ⟨⟨hfits, hall⟩, rfl⟩
    · rintro ⟨⟨hfits, hall⟩, rfl⟩
      exact ⟨_, _, Layout.decode?_eq_some_iff.mpr ⟨hfits, rfl⟩, ih.mpr ⟨hall, rfl⟩, rfl⟩

/-- A table is read iff the source holds the encodings of its records. -/
theorem unpackMany_eq_ok_iff {source : Source} {layout : Layout} {offset : Int} {count : Nat}
    {records : List (List Value)} (hpos : 0 < layout.size) :
    source.unpackMany layout offset count = .ok records ↔
      records.length = count ∧ (∀ r ∈ records, layout.Fits r) ∧
        source.Holds offset (records.flatMap (layout.encode source.order)) := by
  -- the pieces are decoded to the records iff they are their encodings
  have hmap : ∀ bytes : List UInt8,
      (chunks layout.size count bytes).mapM (layout.decode? source.order) = some records ↔
        (∀ r ∈ records, layout.Fits r) ∧
          chunks layout.size count bytes = records.map (layout.encode source.order) := by
    intro bytes
    rw [Option.mapM_eq_some_iff, forall₂_decode?_iff]
  rw [unpackMany, Except.bind_eq_ok_iff]
  simp only [if_neg (Nat.pos_iff_ne_zero.mp hpos), Int.toNat_natCast]
  constructor
  · rintro ⟨bytes, hread, hrecords⟩
    split at hrecords
    · rename_i found hfound
      cases hrecords
      obtain ⟨hfits, hchunks⟩ := (hmap bytes).mp hfound
      obtain ⟨hlen, hheld⟩ := read_eq_ok_iff.mp hread
      have hcount := congrArg List.length hchunks
      rw [length_chunks, List.length_map] at hcount
      have hbytes : records.flatMap (layout.encode source.order) = bytes := by
        rw [List.flatMap_def, ← hchunks, flatten_chunks (by exact_mod_cast hlen)]
      exact ⟨hcount.symm, hfits, hbytes ▸ hheld⟩
    · contradiction
  · rintro ⟨rfl, hfits, hheld⟩
    have hsize : ∀ p ∈ records.map (layout.encode source.order), p.length = layout.size := by
      intro p hp
      obtain ⟨r, hr, rfl⟩ := List.mem_map.mp hp
      exact Layout.length_encode (hfits r hr)
    have hlen : (records.flatMap (layout.encode source.order)).length =
        layout.size * records.length := by
      rw [List.length_flatMap, List.map_congr_left fun r hr => Layout.length_encode (hfits r hr)]
      simp [Nat.mul_comm]
    have hchunks := chunks_flatten hsize
    rw [List.length_map, ← List.flatMap_def] at hchunks
    exact ⟨_, read_eq_ok_iff.mpr ⟨by rw [hlen]; push_cast; rfl, hheld⟩,
      by rw [(hmap _).mpr ⟨hfits, hchunks⟩]⟩

/-! ## 5. Words and counted strings -/

theorem word_eq_ok_iff {source : Source} {width n : Nat} {offset : Int} :
    source.word width offset = .ok n ↔
      n < Word.bound width ∧ source.Holds offset (source.order.wordBytes width n) := by
  rw [word, Except.bind_eq_ok_iff]
  simp only [unpack_eq_ok_iff, Layout.fits_word_iff]
  constructor
  · rintro ⟨_, ⟨⟨m, hm, rfl⟩, hheld⟩, h⟩
    cases h
    exact ⟨hm, Layout.encode_word source.order width n ▸ hheld⟩
  · rintro ⟨hn, hheld⟩
    exact ⟨_, ⟨⟨n, hn, rfl⟩, (Layout.encode_word source.order width n).symm ▸ hheld⟩, rfl⟩

/-- A counted string is read iff the source holds it with its length in front. -/
theorem readCounted_eq_ok_iff {source : Source} {offset next : Int} {name : List UInt8} :
    source.readCounted offset = .ok (name, next) ↔
      name.length < 256 ∧ source.Holds offset (countedName name) ∧
        next = offset + 1 + name.length := by
  -- the byte in front is a run of its own
  have hsplit : source.Holds offset (countedName name) ↔
      source.Holds offset [UInt8.ofNat name.length] ∧ source.Holds (offset + 1) name :=
    holds_append_iff (a := [UInt8.ofNat name.length])
  rw [readCounted, Except.bind_eq_ok_iff]
  simp only [word_eq_ok_iff, Except.bind_eq_ok_iff, read_eq_ok_iff, ByteOrder.wordBytes_one, hsplit]
  constructor
  · rintro ⟨length, ⟨hbound, hlength⟩, bytes, ⟨hlen, hheld⟩, h⟩
    cases h
    obtain rfl : name.length = length := by exact_mod_cast hlen
    exact ⟨hbound, ⟨hlength, hheld⟩, rfl⟩
  · rintro ⟨hbound, ⟨hlength, hheld⟩, rfl⟩
    exact ⟨_, ⟨hbound, hlength⟩, _, ⟨rfl, hheld⟩, rfl⟩

end Source

end LinearExecutable
