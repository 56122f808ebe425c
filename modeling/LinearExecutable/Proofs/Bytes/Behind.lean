import LinearExecutable.Proofs.Bytes.Window

/-!
# Sources behind a stub

With more bytes in front of it, a source has all it had that much further on: a read that succeeds
on the source alone succeeds there with the same outcome. A read that does not move along is still
inside, but meets other bytes.
-/

namespace LinearExecutable.Source

/-- The first source makes up the second one from byte `n` on. -/
structure Behind (n : Nat) (alone whole : Source) : Prop where
  order : whole.order = alone.order
  stub : ∃ stub : List UInt8, stub.length = n ∧ whole.toList = stub ++ alone.toList

theorem behind_append (stub buffer : ByteArray) (order : ByteOrder) :
    Behind stub.size ⟨buffer, order⟩ ⟨stub ++ buffer, order⟩ := by
  refine ⟨rfl, stub.data.toList, Array.length_toList, ?_⟩
  rw [toList, toList, ByteArray.data_append, Array.toList_append]

section Reads

variable {n : Nat} {alone whole : Source}

theorem Behind.withOrder (h : Behind n alone whole) (order : ByteOrder) :
    Behind n (alone.withOrder order) (whole.withOrder order) :=
  ⟨rfl, h.stub⟩

theorem Behind.size_eq (h : Behind n alone whole) : whole.size = n + alone.size := by
  obtain ⟨stub, hlen, hwhole⟩ := h.stub
  rw [← length_toList, ← length_toList, hwhole, List.length_append, hlen]

-- What a source holds is held behind the stub as well.
theorem Behind.holds (h : Behind n alone whole) {offset : Int} {bytes : List UInt8}
    (hheld : alone.Holds offset bytes) : whole.Holds (offset + n) bytes := by
  obtain ⟨stub, hlen, hwhole⟩ := h.stub
  obtain ⟨before, after, halone, hoffset⟩ := hheld
  refine ⟨stub ++ before, after, ?_, ?_⟩
  · rw [hwhole, halone, List.append_assoc stub, List.append_assoc stub]
  · rw [List.length_append, hlen]
    omega

theorem Behind.word (h : Behind n alone whole) {width value : Nat} {offset : Int}
    (hread : alone.word width offset = .ok value) :
    whole.word width (offset + n) = .ok value := by
  obtain ⟨hbound, hheld⟩ := word_eq_ok_iff.mp hread
  exact word_eq_ok_iff.mpr ⟨hbound, h.order ▸ h.holds hheld⟩

theorem Behind.readCounted (h : Behind n alone whole) {offset next : Int} {name : List UInt8}
    (hread : alone.readCounted offset = .ok (name, next)) :
    whole.readCounted (offset + n) = .ok (name, next + n) := by
  obtain ⟨hshort, hheld, rfl⟩ := readCounted_eq_ok_iff.mp hread
  exact readCounted_eq_ok_iff.mpr ⟨hshort, h.holds hheld, by omega⟩

/-- A window of the source is one of the larger source, at the same place. -/
theorem Behind.exists_read (h : Behind n alone whole) {offset size : Int} {bytes : List UInt8}
    (hread : alone.read offset size = .ok bytes) :
    ∃ bytes', whole.read offset size = .ok bytes' := by
  obtain ⟨hlen, hheld⟩ := read_eq_ok_iff.mp hread
  have hend := hheld.end_le
  have hroom : offset + bytes.length ≤ whole.size := by
    rw [h.size_eq]
    omega
  obtain ⟨bytes', hlen', hheld'⟩ := exists_holds bytes.length hheld.nonneg hroom
  exact ⟨bytes', read_eq_ok_iff.mpr ⟨by omega, hheld'⟩⟩

end Reads

end LinearExecutable.Source
