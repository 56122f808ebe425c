import LinearExecutable.Header
import LinearExecutable.Proofs.Bytes.Window

/-!
# Reading a header

A header is read iff its bytes stand at the offset and nothing is wrong with it.
-/

namespace LinearExecutable

theorem Signature.ofBytes?_eq_some_iff {bytes : List UInt8} {signature : Signature} :
    ofBytes? bytes = some signature ↔ bytes = signature.toBytes := by
  constructor
  · intro h
    have hfound := List.find?_some h
    exact (of_decide_eq_true hfound).symm
  · rintro rfl
    cases signature <;> rfl

theorem Signature.length_toBytes (signature : Signature) : signature.toBytes.length = 2 := by
  cases signature <;> rfl

namespace Header

/-! ## 1. The bytes of a header -/

/-- Every word of a header fits its field. -/
def Fits (h : Header) : Prop :=
  wordLayout.Fits (h.toWords.map .unsigned)

-- The bytes of a header: the signature, the order twice, and the words.
theorem encode_eq (h : Header) :
    h.encode = h.signature.toBytes ++
      ([orderingByte h.order, orderingByte h.order].map UInt8.ofNat ++
        wordLayout.encode h.order (h.toWords.map .unsigned)) := by
  rw [encode, layout]
  have hsplit : h.toValues = [Value.bytes h.signature.toBytes] ++
      ([Value.unsigned (orderingByte h.order), .unsigned (orderingByte h.order)] ++
        h.toWords.map .unsigned) := rfl
  rw [hsplit, Layout.encode_cons _ _ rfl, Layout.encode_cons _ _ rfl]
  simp only [Field.encode, Field.width, List.flatMap_cons, List.flatMap_nil, Value.encode,
    ByteOrder.wordBytes_one, List.append_nil, List.map_cons, List.map_nil, List.singleton_append]

theorem length_encode {h : Header} (hfits : h.Fits) : h.encode.length = size := by
  rw [encode_eq, List.length_append, List.length_append, Signature.length_toBytes,
    Layout.length_encode hfits]
  rfl

-- All words of a header but two have four bytes.
theorem fits_iff {h : Header} :
    h.Fits ↔ h.formatLevel < Word.bound 4 ∧ h.cpuType < Word.bound 2 ∧ h.osType < Word.bound 2 ∧
      ∀ n ∈ h.toWords.drop 3, n < Word.bound 4 := by
  constructor
  · rintro ⟨⟨-, hlevel⟩, ⟨-, hhalves⟩, ⟨-, hothers⟩, -⟩
    exact ⟨hlevel (.unsigned h.formatLevel) List.mem_cons_self,
      hhalves (.unsigned h.cpuType) List.mem_cons_self,
      hhalves (.unsigned h.osType) (List.mem_cons_of_mem _ List.mem_cons_self),
      fun n hn => hothers (.unsigned n) (List.mem_map_of_mem hn)⟩
  · rintro ⟨hlevel, hcpu, hos, hothers⟩
    refine ⟨⟨rfl, ?_⟩, ⟨rfl, ?_⟩, ⟨rfl, ?_⟩, rfl⟩
    · exact List.forall_mem_singleton.mpr hlevel
    · exact List.forall_mem_cons.mpr ⟨hcpu, List.forall_mem_singleton.mpr hos⟩
    · intro v hv
      replace hv : v ∈ (h.toWords.drop 3).map Value.unsigned := hv
      obtain ⟨n, hn, rfl⟩ := List.mem_map.mp hv
      exact hothers n hn

/-! ## 2. Reading it -/

theorem orderOf_eq_ok_iff {bytes words : Nat} {order : ByteOrder} :
    orderOf bytes words = .ok order ↔ bytes = orderingByte order ∧ words = orderingByte order := by
  unfold orderOf
  split
  · cases order <;> simp [orderingByte] <;> omega
  · split
    · cases order <;> simp [orderingByte] <;> omega
    · cases order <;> simp [orderingByte] <;> omega

-- The order of a header is read iff it stands there twice.
theorem readOrder_eq_ok_iff {source : Source} {offset : Int} {order : ByteOrder} :
    readOrder source offset = .ok order ↔
      source.Holds (offset + 2) ([orderingByte order, orderingByte order].map UInt8.ofNat) := by
  have hbound : orderingByte order < Word.bound 1 := by cases order <;> decide
  -- words of one byte are spelled alike in both orders
  have hbytes : ∀ n m : Nat, Layout.encode source.order [.unsigned 2 1] [.unsigned n, .unsigned m] =
      [n, m].map UInt8.ofNat := by
    intro n m
    rw [show [Value.unsigned n, .unsigned m] = [n, m].map .unsigned from rfl,
      show 2 = [n, m].length from rfl, Layout.encode_unsigned]
    simp only [List.flatMap_cons, List.flatMap_nil, ByteOrder.wordBytes_one, List.map_cons,
      List.map_nil, List.append_nil, List.singleton_append]
  rw [readOrder, Except.bind_eq_ok_iff]
  simp only [Source.unpack_eq_ok_iff, Layout.fits_unsigned_iff]
  constructor
  · rintro ⟨values, ⟨⟨ns, hlen, -, rfl⟩, hheld⟩, horder⟩
    obtain ⟨a, b, rfl⟩ := List.length_eq_two.mp hlen
    obtain ⟨rfl, rfl⟩ := orderOf_eq_ok_iff.mp horder
    exact hbytes _ _ ▸ hheld
  · intro hheld
    refine ⟨[.unsigned (orderingByte order), .unsigned (orderingByte order)],
      ⟨⟨[orderingByte order, orderingByte order], rfl, ?_, rfl⟩, ?_⟩, ?_⟩
    · simpa using hbound
    · exact (hbytes _ _).symm ▸ hheld
    · exact orderOf_eq_ok_iff.mpr ⟨rfl, rfl⟩

theorem ofWords?_eq_some_iff {signature : Signature} {order : ByteOrder} {words : List Nat}
    {h : Header} : ofWords? signature order words = some h ↔
      h.signature = signature ∧ h.order = order ∧ h.toWords = words := by
  constructor
  · intro hwords
    unfold ofWords? at hwords
    split at hwords
    · cases hwords
      exact ⟨rfl, rfl, rfl⟩
    · contradiction
  · rintro ⟨rfl, rfl, rfl⟩
    exact ofWords?_toWords h

-- What fits the words of a header are 44 numbers.
theorem exists_words {values : List Value} (h : wordLayout.Fits values) :
    ∃ words : List Nat, words.length = 44 ∧ values = words.map .unsigned := by
  obtain ⟨level, others, -, hothers, rfl⟩ := Layout.fits_word_cons_iff.mp h
  obtain ⟨halves, rest, rfl, hhalves, hrest⟩ := Layout.fits_cons_iff.mp hothers
  obtain ⟨ms, hms, -, rfl⟩ := Layout.fits_unsigned_iff.mp (Layout.fits_singleton_iff.mpr hhalves)
  obtain ⟨ns, hns, -, rfl⟩ := Layout.fits_unsigned_iff.mp hrest
  exact ⟨level :: (ms ++ ns), by rw [List.length_cons, List.length_append, hms, hns],
    by rw [List.map_cons, List.map_append]⟩

-- The header has as many fields as there are words in it.
theorem exists_ofWords? (signature : Signature) (order : ByteOrder) {words : List Nat}
    (h : words.length = 44) : ∃ header, ofWords? signature order words = some header := by
  iterate 44
    obtain _ | ⟨word, words⟩ := words
    · simp at h
  obtain rfl : words = [] := by simpa using h
  exact ⟨_, rfl⟩

theorem readWords_eq_ok_iff {source : Source} {signature : Signature} {offset : Int} {h : Header} :
    readWords source signature offset = .ok h ↔
      h.signature = signature ∧ h.order = source.order ∧ h.Fits ∧
        source.Holds (offset + 4) (wordLayout.encode h.order (h.toWords.map .unsigned)) := by
  rw [readWords, Except.bind_eq_ok_iff]
  simp only [Source.unpack_eq_ok_iff]
  constructor
  · rintro ⟨values, ⟨hfits, hheld⟩, hread⟩
    obtain ⟨words, -, rfl⟩ := exists_words hfits
    rw [Value.mapM_nat?, Option.bind_some] at hread
    split at hread
    · rename_i found hfound
      cases hread
      obtain ⟨hsignature, horder, rfl⟩ := ofWords?_eq_some_iff.mp hfound
      exact ⟨hsignature, horder, hfits, horder.symm ▸ hheld⟩
    · contradiction
  · rintro ⟨rfl, horder, hfits, hheld⟩
    refine ⟨_, ⟨hfits, horder ▸ hheld⟩, ?_⟩
    rw [Value.mapM_nat?, Option.bind_some, ofWords?_eq_some_iff.mpr ⟨rfl, horder, rfl⟩]
    rfl

/-! ## 3. Accepting it -/

theorem pastEnd?_cons (base : Int) (size : Nat) (name : String) (value : Nat)
    (fields : List (String × Nat)) :
    pastEnd? base size ((name, value) :: fields) =
      if value ≠ 0 ∧ size < base + value then some (.pastEnd name value)
      else pastEnd? base size fields := by
  unfold pastEnd?
  rw [List.findSome?_cons]
  by_cases hpast : value ≠ 0 ∧ size < base + value
  · simp only [if_pos hpast]
  · simp only [if_neg hpast]

-- No field points past the end of the file.
theorem pastEnd?_eq_none_iff {base : Int} {size : Nat} {fields : List (String × Nat)} :
    pastEnd? base size fields = none ↔ ∀ field ∈ fields, field.2 ≠ 0 → base + field.2 ≤ size := by
  induction fields with
  | nil => simp [pastEnd?]
  | cons field fields ih =>
    obtain ⟨name, value⟩ := field
    rw [pastEnd?_cons, List.forall_mem_cons]
    dsimp only
    split
    · rename_i hpast
      refine iff_of_false (Option.some_ne_none _) fun h => ?_
      have := h.1 hpast.1
      omega
    · rename_i hinside
      rw [ih, iff_and_self]
      intro _ hvalue
      by_contra hpast
      exact hinside ⟨hvalue, by omega⟩

theorem pageSizeFault?_eq_none_iff {h : Header} :
    h.pageSizeFault? = none ↔ ∃ k, h.pageSize = 1 <<< k := by
  unfold pageSizeFault?
  constructor
  · intro hnone
    split at hnone
    · rename_i hpower
      exact ⟨_, hpower.2.symm⟩
    · contradiction
  · rintro ⟨k, hk⟩
    rw [hk, if_pos]
    rw [Nat.one_shiftLeft, Nat.log2_two_pow, Nat.one_shiftLeft]
    exact ⟨(Nat.two_pow_pos k).ne', rfl⟩

/-- A header is acceptable iff none of the checks finds a fault. -/
theorem fault?_eq_none_iff {h : Header} {fileSize : Nat} {offset : Int} :
    h.fault? fileSize offset = none ↔
      h.pageSizeFault? = none ∧ h.shiftFault? = none ∧
        pastEnd? offset fileSize h.relativeOffsets = none ∧
        pastEnd? 0 fileSize h.fileOffsets = none := by
  simp only [fault?, Option.orElse_eq_orElse, Option.orElse_eq_or, Option.or_eq_none_iff]

theorem holds_encode_iff {source : Source} {offset : Int} {h : Header} :
    source.Holds offset h.encode ↔ source.Holds offset h.signature.toBytes ∧
      source.Holds (offset + 2) ([orderingByte h.order, orderingByte h.order].map UInt8.ofNat) ∧
        source.Holds (offset + 4) (wordLayout.encode h.order (h.toWords.map .unsigned)) := by
  rw [encode_eq, Source.holds_append_iff, Source.holds_append_iff, Signature.length_toBytes,
    show (offset + (2 : Nat) : Int) = offset + 2 from rfl, Int.add_assoc]
  rfl

/-- A header is read iff the source holds its bytes and it is acceptable. -/
theorem read_eq_ok_iff {source : Source} {offset next : Int} {h : Header} :
    read source offset = .ok (h, next) ↔
      h.Fits ∧ source.Holds offset h.encode ∧ h.fault? source.size offset = none ∧
        next = offset + size := by
  rw [read, Except.bind_eq_ok_iff]
  constructor
  · rintro ⟨_, hroom, hread⟩
    obtain ⟨hnonneg, -, hle⟩ := Source.require_eq_ok_iff.mp hroom
    have hsize : (size : Int) = 0xB0 := rfl
    have htwo : offset + (2 : Nat) ≤ source.size := by omega
    -- the signature is looked up without a check of its own: there is room for all of the header
    obtain ⟨bytes, hlen, hheld⟩ := Source.exists_holds 2 hnonneg htwo
    rw [Source.signatureAt_eq hheld hlen] at hread
    split at hread
    · contradiction
    · rename_i signature hsignature
      obtain ⟨order, horder, hread⟩ := Except.bind_eq_ok_iff.mp hread
      obtain ⟨header, hwords, hread⟩ := Except.bind_eq_ok_iff.mp hread
      split at hread
      · contradiction
      · rename_i hfault
        cases hread
        obtain ⟨rfl, hsame, hfits, hheldWords⟩ := readWords_eq_ok_iff.mp hwords
        obtain rfl : h.order = order := hsame
        obtain rfl := Signature.ofBytes?_eq_some_iff.mp hsignature
        exact ⟨hfits, holds_encode_iff.mpr ⟨hheld, readOrder_eq_ok_iff.mp horder, hheldWords⟩,
          hfault, rfl⟩
  · rintro ⟨hfits, hheld, hfault, rfl⟩
    have hend := hheld.end_le
    rw [length_encode hfits] at hend
    refine ⟨(), Source.require_eq_ok_iff.mpr ⟨hheld.nonneg, by omega, hend⟩, ?_⟩
    obtain ⟨hsignature, horder, hwords⟩ := holds_encode_iff.mp hheld
    rw [Source.signatureAt_eq hsignature (Signature.length_toBytes _),
      Signature.ofBytes?_eq_some_iff.mpr rfl]
    refine Except.bind_eq_ok_iff.mpr ⟨_, readOrder_eq_ok_iff.mpr horder, ?_⟩
    refine Except.bind_eq_ok_iff.mpr
      ⟨h, readWords_eq_ok_iff.mpr ⟨rfl, rfl, hfits, Source.holds_withOrder_iff.mpr hwords⟩, ?_⟩
    rw [hfault]
    rfl

end Header

end LinearExecutable
