import LinearExecutable.Proofs.Header
import LinearExecutable.Proofs.Image.RoundTrip

/-!
# Which headers are accepted

What becomes of the bytes at an offset is decided by them, the offset and the size of the file, and
not by the order in which the file is read: the order of the words stands in the header itself. A
header that is read, written out again, is the bytes that stand there.
-/

namespace LinearExecutable.Header

/-! ## 1. Acceptable headers -/

/-- What a header has to meet at an offset of a file: its page size is a power of two, an LE module
has at most a page on its last page, other modules shift by less than the width of an offset, and
every table that is present starts inside the file. -/
structure Acceptable (h : Header) (fileSize : Nat) (offset : Int) : Prop where
  pageSize : ∃ k, h.pageSize = 2 ^ k
  lastPageSize : h.signature = .le → h.shiftOrLastSize ≤ h.pageSize
  pageShift : h.signature ≠ .le → h.shiftOrLastSize < 32
  /-- Offsets that are counted from the header. -/
  relative : ∀ field ∈ h.relativeOffsets, field.2 ≠ 0 → offset + field.2 ≤ fileSize
  /-- Offsets that are counted from the start of the file. -/
  absolute : ∀ field ∈ h.fileOffsets, field.2 ≠ 0 → field.2 ≤ fileSize

theorem shiftFault?_eq_none_iff {h : Header} :
    h.shiftFault? = none ↔ (h.signature = .le → h.shiftOrLastSize ≤ h.pageSize) ∧
      (h.signature ≠ .le → h.shiftOrLastSize < 32) := by
  unfold shiftFault?
  by_cases hle : h.signature = .le
  · simp [hle]
  · simp [hle]

/-- The checks find nothing wrong with the headers that are acceptable. -/
theorem acceptable_iff {h : Header} {fileSize : Nat} {offset : Int} :
    h.Acceptable fileSize offset ↔ h.fault? fileSize offset = none := by
  rw [fault?_eq_none_iff, pageSizeFault?_eq_none_iff, shiftFault?_eq_none_iff,
    pastEnd?_eq_none_iff, pastEnd?_eq_none_iff]
  simp only [Nat.one_shiftLeft, Int.zero_add, Int.ofNat_le]
  constructor
  · rintro ⟨hsize, hlast, hshift, hrelative, habsolute⟩
    exact ⟨hsize, ⟨hlast, hshift⟩, hrelative, habsolute⟩
  · rintro ⟨hsize, ⟨hlast, hshift⟩, hrelative, habsolute⟩
    exact ⟨hsize, hlast, hshift, hrelative, habsolute⟩

instance (h : Header) (fileSize : Nat) (offset : Int) : Decidable (h.Acceptable fileSize offset) :=
  decidable_of_iff' _ acceptable_iff

/-! ## 2. The ordering bytes -/

-- The order of a header depends on its two ordering bytes alone: one byte is a word in any order.
theorem readOrder_of_holds {source : Source} {offset : Int} {bytes words : UInt8}
    (h : source.Holds (offset + 2) [bytes, words]) :
    readOrder source offset = orderOf bytes.toNat words.toNat := by
  have hpair : source.unpack [.unsigned 2 1] (offset + 2) =
      .ok [.unsigned bytes.toNat, .unsigned words.toNat] := by
    refine Source.unpack_eq_ok_iff.mpr
      ⟨Layout.fits_unsigned_iff.mpr ⟨[bytes.toNat, words.toNat], rfl, ?_, rfl⟩, ?_⟩
    · exact List.forall_mem_cons.mpr ⟨bytes.toNat_lt, List.forall_mem_singleton.mpr words.toNat_lt⟩
    · have hencode : Layout.encode source.order [.unsigned 2 1]
          ([bytes.toNat, words.toNat].map .unsigned) = [bytes, words] := by
        rw [show 2 = [bytes.toNat, words.toNat].length from rfl, Layout.encode_unsigned]
        simp only [List.flatMap_cons, List.flatMap_nil, ByteOrder.wordBytes_one,
          UInt8.ofNat_toNat, List.singleton_append, List.append_nil]
      exact hencode.symm ▸ h
  rw [readOrder, hpair, Except.bind_ok]

-- Ordering bytes that do not agree on zero or one are a fault of the format.
theorem exists_fault_of_orderOf {bytes words : UInt8} (h : ¬(bytes = words ∧ bytes ≤ 1)) :
    ∃ fault, orderOf bytes.toNat words.toNat = .error (.format fault) := by
  unfold orderOf
  split
  · exact ⟨_, rfl⟩
  · rename_i hsmall
    split
    · exact ⟨_, rfl⟩
    · rename_i hsame
      refine absurd ⟨UInt8.toNat_inj.mp (not_not.mp hsame), UInt8.le_iff_toNat_le.mpr ?_⟩ h
      exact Nat.le_of_not_lt fun hgreat => hsmall (.inl hgreat)

-- Zero and one each stand for an order.
theorem exists_orderingByte {byte : UInt8} (h : byte ≤ 1) :
    ∃ order, byte = UInt8.ofNat (orderingByte order) := by
  have hbyte : byte.toNat ≤ 1 := UInt8.le_iff_toNat_le.mp h
  rcases Nat.le_one_iff_eq_zero_or_eq_one.mp hbyte with hzero | hone
  · exact ⟨.little, UInt8.toNat_inj.mp hzero⟩
  · exact ⟨.big, UInt8.toNat_inj.mp hone⟩

/-! ## 3. What becomes of the bytes at an offset -/

theorem read_of_no_room {source : Source} {offset : Int}
    (h : ¬(0 ≤ offset ∧ offset + size ≤ source.size)) :
    read source offset = .error (.truncated (.window size offset source.size)) := by
  rw [read, Source.require_eq_error (by omega)]
  rfl

-- Where there is room for a header, its four parts can be told apart.
theorem exists_bytes {source : Source} {offset : Int} (hnonneg : 0 ≤ offset)
    (hroom : offset + size ≤ source.size) :
    ∃ pair bytes words rest, pair.length = 2 ∧ rest.length = wordLayout.size ∧
      source.Holds offset (pair ++ ([bytes, words] ++ rest)) := by
  have hsize : (size : Int) = 2 + (2 + wordLayout.size) := rfl
  obtain ⟨pair, hpair, hheldPair⟩ : ∃ pair : List UInt8, pair.length = 2 ∧
      source.Holds offset pair :=
    Source.exists_holds 2 hnonneg (by omega)
  obtain ⟨ordering, hordering, hheldOrdering⟩ : ∃ ordering : List UInt8, ordering.length = 2 ∧
      source.Holds (offset + 2) ordering :=
    Source.exists_holds 2 (by omega) (by omega)
  obtain ⟨rest, hrest, hheldRest⟩ : ∃ rest : List UInt8, rest.length = wordLayout.size ∧
      source.Holds (offset + 2 + 2) rest :=
    Source.exists_holds wordLayout.size (by omega) (by omega)
  obtain ⟨bytes, words, rfl⟩ := List.length_eq_two.mp hordering
  refine ⟨pair, bytes, words, rest, hpair, hrest, Source.holds_append_iff.mpr ⟨hheldPair, ?_⟩⟩
  rw [hpair]
  exact Source.holds_append_iff.mpr ⟨hheldOrdering, hheldRest⟩

section Held

variable {source : Source} {offset : Int} {pair rest : List UInt8} {bytes words : UInt8}

-- With all of a header there, its signature is looked for in the first two bytes.
theorem read_of_holds (hpair : pair.length = 2) (hrest : rest.length = wordLayout.size)
    (hheld : source.Holds offset (pair ++ ([bytes, words] ++ rest))) :
    read source offset = (do
      match Signature.ofBytes? pair with
      | none => throw (.noHeader (.noSignature offset))
      | some signature =>
        let order ← orderOf bytes.toNat words.toNat
        let header ← readWords (source.withOrder order) signature offset
        match header.fault? source.size offset with
        | some fault => throw (.format fault)
        | none => return (header, offset + size)) := by
  have hend := hheld.end_le
  have hsize : (size : Int) = 0xB0 := rfl
  have hwords : wordLayout.size = 172 := rfl
  simp only [List.length_append, List.length_cons, List.length_nil, hpair, hrest, hwords] at hend
  have hroom : source.require offset size = .ok () :=
    Source.require_eq_ok_iff.mpr ⟨hheld.nonneg, by omega, by omega⟩
  obtain ⟨hheldPair, hheldRest⟩ := Source.holds_append_iff.mp hheld
  rw [hpair] at hheldRest
  have horder := readOrder_of_holds (Source.holds_append_iff.mp hheldRest).1
  rewrite [read, hroom, Except.bind_ok, Source.signatureAt_eq hheldPair hpair, horder]
  rfl

-- Bytes that are no signature are refused before anything else is looked at.
theorem read_of_no_signature (hpair : pair.length = 2) (hrest : rest.length = wordLayout.size)
    (hheld : source.Holds offset (pair ++ ([bytes, words] ++ rest)))
    (hnone : ∀ signature : Signature, pair ≠ signature.toBytes) :
    read source offset = .error (.noHeader (.noSignature offset)) := by
  have hsignature : Signature.ofBytes? pair = none :=
    Option.eq_none_iff_forall_ne_some.mpr fun signature hsome =>
      hnone signature (Signature.ofBytes?_eq_some_iff.mp hsome)
  rw [read_of_holds hpair hrest hheld, hsignature]
  rfl

-- Behind a signature, the ordering bytes come next.
theorem exists_fault_of_ordering {signature : Signature} (hrest : rest.length = wordLayout.size)
    (hheld : source.Holds offset (signature.toBytes ++ ([bytes, words] ++ rest)))
    (h : ¬(bytes = words ∧ bytes ≤ 1)) :
    ∃ fault, read source offset = .error (.format fault) := by
  obtain ⟨fault, hfault⟩ := exists_fault_of_orderOf h
  refine ⟨fault, ?_⟩
  rw [read_of_holds signature.length_toBytes hrest hheld, Signature.ofBytes?_eq_some_iff.mpr rfl]
  dsimp only
  rw [hfault]
  rfl

-- What stands behind the ordering bytes are words, in whichever order.
theorem exists_header (signature : Signature) (order : ByteOrder)
    (hrest : rest.length = wordLayout.size) :
    ∃ h : Header, h.signature = signature ∧ h.order = order ∧ h.Fits ∧
      h.encode = signature.toBytes ++
        ([orderingByte order, orderingByte order].map UInt8.ofNat ++ rest) := by
  obtain ⟨values, hvalues⟩ := Layout.exists_decode? order rest hrest
  obtain ⟨hfits, rfl⟩ := Layout.decode?_eq_some_iff.mp hvalues
  obtain ⟨numbers, hlen, rfl⟩ := exists_words hfits
  obtain ⟨h, hnumbers⟩ := exists_ofWords? signature order hlen
  obtain ⟨rfl, rfl, rfl⟩ := ofWords?_eq_some_iff.mp hnumbers
  exact ⟨h, rfl, rfl, hfits, h.encode_eq⟩

end Held

/-- A header that stands at an offset is either accepted or refused for its fault. -/
theorem read_of_encode {source : Source} {offset : Int} {h : Header} (hfits : h.Fits)
    (hheld : source.Holds offset h.encode) :
    read source offset =
      match h.fault? source.size offset with
      | some fault => .error (.format fault)
      | none => .ok (h, offset + size) := by
  have hrest : (wordLayout.encode h.order (h.toWords.map .unsigned)).length = wordLayout.size :=
    Layout.length_encode hfits
  obtain ⟨-, -, hwords⟩ := holds_encode_iff.mp hheld
  rw [encode_eq] at hheld
  rw [read_of_holds h.signature.length_toBytes hrest hheld,
    Signature.ofBytes?_eq_some_iff.mpr rfl]
  have hordering : (UInt8.ofNat (orderingByte h.order)).toNat = orderingByte h.order := by
    cases h.order <;> rfl
  have horder : orderOf (UInt8.ofNat (orderingByte h.order)).toNat
      (UInt8.ofNat (orderingByte h.order)).toNat = .ok h.order :=
    orderOf_eq_ok_iff.mpr ⟨hordering, hordering⟩
  have hread : readWords (source.withOrder h.order) h.signature offset = .ok h :=
    readWords_eq_ok_iff.mpr ⟨rfl, rfl, hfits, Source.holds_withOrder_iff.mpr hwords⟩
  dsimp only
  rw [horder, Except.bind_ok, hread, Except.bind_ok]
  rfl

-- What is not acceptable is a fault of the format.
theorem exists_fault_of_not_acceptable {source : Source} {offset : Int} {h : Header}
    (hfits : h.Fits) (hheld : source.Holds offset h.encode)
    (hunacceptable : ¬h.Acceptable source.size offset) :
    ∃ fault, read source offset = .error (.format fault) := by
  rw [acceptable_iff] at hunacceptable
  obtain ⟨fault, hfault⟩ := Option.ne_none_iff_exists'.mp hunacceptable
  refine ⟨fault, ?_⟩
  rw [read_of_encode hfits hheld, hfault]

/-- A header is read iff its bytes stand at the offset and it is acceptable. -/
theorem read_eq_ok_iff_acceptable {source : Source} {offset next : Int} {h : Header} :
    read source offset = .ok (h, next) ↔
      next = offset + 0xB0 ∧ h.Fits ∧ source.read offset 0xB0 = .ok h.encode ∧
        h.Acceptable source.size offset := by
  rw [read_eq_ok_iff, acceptable_iff, Source.read_eq_ok_iff]
  constructor
  · rintro ⟨hfits, hheld, hfault, rfl⟩
    exact ⟨rfl, hfits, ⟨congrArg Nat.cast (length_encode hfits), hheld⟩, hfault⟩
  · rintro ⟨rfl, hfits, ⟨-, hheld⟩, hfault⟩
    exact ⟨hfits, hheld, hfault, rfl⟩

/-- The order that a file is read in does not matter to a header. -/
theorem read_withOrder (source : Source) (order : ByteOrder) (offset : Int) :
    read (source.withOrder order) offset = read source offset := by
  by_cases hroom : 0 ≤ offset ∧ offset + size ≤ source.size
  · obtain ⟨pair, bytes, words, rest, hpair, hrest, hheld⟩ := exists_bytes hroom.1 hroom.2
    rw [read_of_holds hpair hrest hheld,
      read_of_holds hpair hrest (Source.holds_withOrder_iff.mpr hheld)]
    rfl
  · rw [read_of_no_room hroom]
    exact read_of_no_room hroom

/-- Which headers are read. A header is read iff its bytes stand at the offset and it is
acceptable; that is the same in both orders. What is not read is refused for the first of three
reasons: the file ends in it, there is no signature, or the format is at fault, by ordering bytes
that do not agree on an order or by a header that is not acceptable. -/
theorem read_outcome (source : Source) (offset : Int) :
    (∀ h next, read source offset = .ok (h, next) ↔
      next = offset + 0xB0 ∧ h.Fits ∧ source.read offset 0xB0 = .ok h.encode ∧
        h.Acceptable source.size offset) ∧
    (∀ order, read (source.withOrder order) offset = read source offset) ∧
    (¬(0 ≤ offset ∧ offset + 0xB0 ≤ source.size) →
      read source offset = .error (.truncated (.window 0xB0 offset source.size))) ∧
    (0 ≤ offset → offset + 0xB0 ≤ source.size →
      ∃ pair bytes words rest, source.read offset 0xB0 = .ok (pair ++ ([bytes, words] ++ rest)) ∧
        pair.length = 2 ∧
        ((∀ signature : Signature, pair ≠ signature.toBytes) →
          read source offset = .error (.noHeader (.noSignature offset))) ∧
        ∀ signature : Signature, pair = signature.toBytes →
          (¬(bytes = words ∧ bytes ≤ 1) → ∃ fault, read source offset = .error (.format fault)) ∧
          (bytes = words ∧ bytes ≤ 1 → ∃ h : Header, h.signature = signature ∧ h.Fits ∧
            h.encode = pair ++ ([bytes, words] ++ rest) ∧
            (h.Acceptable source.size offset → read source offset = .ok (h, offset + 0xB0)) ∧
            (¬h.Acceptable source.size offset →
              ∃ fault, read source offset = .error (.format fault)))) := by
  refine ⟨fun h next => read_eq_ok_iff_acceptable, fun order => read_withOrder source order offset,
    fun hroom => read_of_no_room hroom, fun hnonneg hroom => ?_⟩
  obtain ⟨pair, bytes, words, rest, hpair, hrest, hheld⟩ := exists_bytes hnonneg hroom
  have hlen : ((pair ++ ([bytes, words] ++ rest)).length : Int) = 0xB0 := by
    simp only [List.length_append, List.length_cons, List.length_nil, hpair, hrest]
    rfl
  have hread := Source.read_eq_ok_iff.mpr ⟨hlen, hheld⟩
  refine ⟨pair, bytes, words, rest, hread, hpair, read_of_no_signature hpair hrest hheld, ?_⟩
  rintro signature rfl
  refine ⟨exists_fault_of_ordering hrest hheld, ?_⟩
  rintro ⟨rfl, hordering⟩
  obtain ⟨order, rfl⟩ := exists_orderingByte hordering
  obtain ⟨h, rfl, rfl, hfits, hencode⟩ := exists_header signature order hrest
  refine ⟨h, rfl, hfits, hencode, fun hacceptable => ?_,
    exists_fault_of_not_acceptable hfits (hencode.symm ▸ hheld)⟩
  exact read_eq_ok_iff_acceptable.mpr ⟨rfl, hfits, hencode.symm ▸ hread, hacceptable⟩

theorem read_outcome_sample :
    read (Blueprint.sample.source .big) 3 = .ok (Blueprint.sample.header, 3 + 0xB0) ∧
      read (Blueprint.sample.source .big) 300 = .error (.truncated (.window 0xB0 300 317)) := by
  have hfits := Blueprint.fits_header Blueprint.buildable_sample
  have hlaid := Blueprint.laid_source hfits .big
  have hlen : (Blueprint.sample.header.encode.length : Int) = 0xB0 :=
    congrArg Nat.cast (length_encode hfits)
  have hacceptable : Blueprint.sample.header.Acceptable (Blueprint.sample.source .big).size 3 :=
    acceptable_iff.mpr (Blueprint.fault?_header Blueprint.buildable_sample hlaid)
  have hread := (read_outcome (Blueprint.sample.source .big) 3).1
  refine ⟨(hread _ _).mpr ⟨rfl, hfits, Source.read_eq_ok_iff.mpr ⟨hlen, hlaid.header⟩,
    hacceptable⟩, ?_⟩
  have hsize : (Blueprint.sample.source .big).size = 317 := by decide +kernel
  have htruncated := (read_outcome (Blueprint.sample.source .big) 300).2.2.1
  rw [hsize] at htruncated
  exact htruncated (by decide)

end LinearExecutable.Header
