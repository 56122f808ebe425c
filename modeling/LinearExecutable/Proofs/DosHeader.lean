import LinearExecutable.DosHeader
import LinearExecutable.Proofs.Bytes.Refusal

/-!
# Reading a DOS header

Where the signature of a DOS program stands and the file goes on for the size of the header, the
header is read: its values, written out again, are the bytes that stand there.
-/

namespace LinearExecutable

namespace Source

/-- The two bytes from a place on, or what there is of them. -/
def pairAt (source : Source) (start : Nat) : List UInt8 :=
  (source.toList.drop start).take 2

-- A signature is looked for in the two bytes from its offset on.
theorem signatureAt_natCast (source : Source) (start : Nat) :
    source.signatureAt start = source.pairAt start := by
  have hplace : ∀ i : Nat, source.place i = min i source.size := fun i => by
    rw [place, if_neg (by omega), Int.toNat_natCast]
  have hstop : source.place ((start : Int) + 2) = min (start + 2) source.size := hplace (start + 2)
  rw [signatureAt, slice, hstop, hplace, segment_eq, pairAt]
  rcases Nat.le_total start source.size with hle | hle
  · rw [Nat.min_eq_left hle]
    apply List.take_eq_take_iff.mpr
    rw [List.length_drop, length_toList]
    omega
  · have hnil : source.toList.drop (min start source.size) = [] :=
      List.drop_eq_nil_of_le (by rw [length_toList]; omega)
    rw [hnil, List.drop_eq_nil_of_le (by rw [length_toList]; exact hle), List.take_nil,
      List.take_nil]

-- Behind the end of a file there is nothing.
theorem pairAt_of_size_le {source : Source} {start : Nat} (h : source.size ≤ start) :
    source.pairAt start = [] := by
  rw [pairAt, List.drop_eq_nil_of_le (by rw [length_toList]; exact h), List.take_nil]

end Source

namespace DosHeader

/-! ## 1. Its values -/

-- What fits a header is a signature of two bytes and 30 words.
theorem exists_words {values : List Value} (h : layout.Fits values) :
    ∃ (signature : List UInt8) (words : List Nat), signature.length = 2 ∧ words.length = 30 ∧
      values = .bytes signature :: words.map .unsigned := by
  obtain ⟨first, others, rfl, ⟨hlen, hadmits⟩, hothers⟩ := Layout.fits_cons_iff.mp h
  obtain ⟨halves, rest, rfl, hhalves, hrest⟩ := Layout.fits_cons_iff.mp hothers
  obtain ⟨ms, hms, -, rfl⟩ := Layout.fits_unsigned_iff.mp (Layout.fits_singleton_iff.mpr hhalves)
  obtain ⟨n, -, rfl⟩ := Layout.fits_word_iff.mp hrest
  obtain ⟨v, rfl⟩ := List.length_eq_one_iff.mp hlen
  have hv := hadmits v List.mem_cons_self
  cases v with
  | bytes signature =>
    exact ⟨signature, ms ++ [n], hv, by rw [List.length_append, hms]; rfl,
      by rw [List.map_append]; rfl⟩
  | unsigned _ | signed _ => exact hv.elim

-- The header has as many fields as there are words in it, and keeps their order.
theorem exists_ofWords? {words : List Nat} (h : words.length = 30) :
    ∃ header, ofWords? words = some header ∧ header.toWords = words := by
  iterate 30
    obtain _ | ⟨word, words⟩ := words
    · simp at h
  obtain rfl : words = [] := by simpa using h
  exact ⟨_, rfl, rfl⟩

/-! ## 2. Reading it -/

-- The signature is looked for in the first two bytes of a file.
theorem isAt_zero_iff {source : Source} : isAt source 0 = true ↔ magic <+: source.toList := by
  rw [isAt, decide_eq_true_iff, List.prefix_iff_eq_take, eq_comm]
  exact Eq.congr_right (source.signatureAt_natCast 0)

/-- A DOS header that is announced is read unless the file ends in it. -/
theorem failsOnly_read {source : Source} {offset : Int} (h : isAt source offset = true) :
    FailsOnly Error.IsTruncated (read source offset) := by
  rw [read, h, Bool.not_true, if_neg Bool.false_ne_true]
  apply ((source.withOrder .little).failsOnly_unpack _ offset).bind
  intro values hread
  obtain ⟨signature, words, -, hlen, rfl⟩ := exists_words (Source.unpack_eq_ok_iff.mp hread).1
  obtain ⟨header, hheader, -⟩ := exists_ofWords? hlen
  dsimp only
  rw [Value.mapM_nat?, Option.bind_some, hheader]
  exact failsOnly_ok _

-- The order of a source does not matter to a DOS header.
theorem read_withOrder (source : Source) (order : ByteOrder) (offset : Int) :
    read (source.withOrder order) offset = read source offset := rfl

/-- A DOS header that is announced and that there is room for is read, and the bytes that it is
written with stand there. -/
theorem exists_read {source : Source} {offset : Int} (h : isAt source offset = true)
    (hnonneg : 0 ≤ offset) (hroom : offset + size ≤ source.size) :
    ∃ header, read source offset = .ok (header, offset + size) ∧ header.encode.length = size ∧
      source.Holds offset header.encode := by
  obtain ⟨values, hread⟩ := (source.withOrder .little).exists_unpack layout hnonneg hroom
  obtain ⟨hfits, hheld⟩ := Source.unpack_eq_ok_iff.mp hread
  obtain ⟨signature, words, htwo, hlen, rfl⟩ := exists_words hfits
  obtain ⟨header, hheader, rfl⟩ := exists_ofWords? hlen
  -- the signature that was looked for is the one that was read
  obtain rfl : signature = magic := by
    have hbytes := (Source.holds_append_iff (a := signature)).mp hheld
    rw [isAt, decide_eq_true_iff] at h
    exact (Source.signatureAt_eq hbytes.1 htwo).symm.trans h
  refine ⟨header, ?_, Layout.length_encode hfits, hheld⟩
  rw [read, h, Bool.not_true, if_neg Bool.false_ne_true]
  refine Except.bind_eq_ok_iff.mpr ⟨_, hread, ?_⟩
  dsimp only
  rw [Value.mapM_nat?, Option.bind_some, hheader]
  rfl

/-- A DOS program that is long enough for its header has one: its first 64 bytes, whichever order
the file is read in. -/
theorem exists_read_zero {source : Source} (h : isAt source 0 = true) (hsize : 64 ≤ source.size) :
    ∃ header, (∀ order, read (source.withOrder order) 0 = .ok (header, 64)) ∧
      header.encode = source.toList.take 64 := by
  obtain ⟨header, hread, hlen, hheld⟩ := exists_read h (Int.le_refl 0)
    (show (0 : Int) + 64 ≤ source.size by omega)
  have hbytes := (Source.holds_iff.mp hheld).2.2
  rw [hlen, Int.toNat_zero, List.drop_zero] at hbytes
  exact ⟨header, fun order => (read_withOrder source order 0).trans hread, hbytes.symm⟩

/-- A file that ends in its DOS header is refused. -/
theorem read_of_size_lt {source : Source} (h : isAt source 0 = true) (hshort : source.size < 64) :
    read source 0 = .error (.truncated (.window 64 0 source.size)) := by
  have hread : source.read 0 64 = .error (.truncated (.window 64 0 source.size)) :=
    Source.read_eq_error (by omega)
  have hunpack : (source.withOrder .little).unpack layout 0 =
      .error (.truncated (.window 64 0 source.size)) := by
    show source.read 0 64 >>= _ = _
    rw [hread]
    rfl
  rw [read, h, Bool.not_true, if_neg Bool.false_ne_true]
  show (source.withOrder .little).unpack layout 0 >>= _ = _
  rw [hunpack]
  rfl

end DosHeader

end LinearExecutable
