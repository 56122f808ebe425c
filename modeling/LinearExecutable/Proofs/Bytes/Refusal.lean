import LinearExecutable.Proofs.Bytes.Window

/-!
# What a read is refused with

A source refuses a read in one way only: the window is not inside it. Bytes of the right number can
always be taken apart, so no read ends in a failure that stands for a structure without the expected
shape. `FailsOnly` bounds the failures of a run and is kept by running reads one after another.
-/

namespace LinearExecutable

/-! ## 1. The failures of a run -/

/-- Every failure that a run ends in is one that `kind` admits. -/
def FailsOnly (kind : Error → Prop) {α : Type} (x : Except Error α) : Prop :=
  ∀ e, x = .error e → kind e

section Runs

variable {kind kind' : Error → Prop} {α β : Type}

theorem failsOnly_ok (a : α) : FailsOnly kind (.ok a : Except Error α) := by
  intro e h
  contradiction

theorem failsOnly_error {e : Error} (h : kind e) : FailsOnly kind (.error e : Except Error α) := by
  intro e' he
  cases he
  exact h

theorem FailsOnly.mono {x : Except Error α} (hx : FailsOnly kind x) (h : ∀ e, kind e → kind' e) :
    FailsOnly kind' x :=
  fun e he => h e (hx e he)

theorem FailsOnly.bind {x : Except Error α} {f : α → Except Error β} (hx : FailsOnly kind x)
    (hf : ∀ a, x = .ok a → FailsOnly kind (f a)) : FailsOnly kind (x >>= f) := by
  intro e he
  cases hcase : x with
  | error e' =>
    rw [hcase] at he
    cases he
    exact hx e hcase
  | ok a =>
    rw [hcase] at he
    exact hf a hcase e he

theorem failsOnly_mapM {f : α → Except Error β} {xs : List α}
    (h : ∀ x ∈ xs, FailsOnly kind (f x)) : FailsOnly kind (xs.mapM f) := by
  intro e he
  obtain ⟨x, hx, hfx⟩ := Except.exists_of_mapM_eq_error he
  exact h x hx e hfx

end Runs

-- Mapping succeeds where every element does.
theorem Option.exists_mapM_eq_some {α β : Type} {f : α → Option β} {xs : List α}
    (h : ∀ x ∈ xs, ∃ y, f x = some y) : ∃ ys, xs.mapM f = some ys := by
  induction xs with
  | nil => exact ⟨[], rfl⟩
  | cons x xs ih =>
    rw [List.forall_mem_cons] at h
    obtain ⟨y, hy⟩ := h.1
    obtain ⟨ys, hys⟩ := ih h.2
    exact ⟨y :: ys, by rw [List.mapM_cons, hy, hys]; rfl⟩

/-! ## 2. Reads -/

/-- A read that ran out of bytes. -/
def Error.IsTruncated (e : Error) : Prop :=
  ∃ cause, e = .truncated cause

namespace Source

variable (source : Source)

theorem failsOnly_require (offset size : Int) :
    FailsOnly Error.IsTruncated (source.require offset size) := by
  unfold require
  split
  · exact failsOnly_error ⟨_, rfl⟩
  · exact failsOnly_ok ()

theorem failsOnly_read (offset size : Int) :
    FailsOnly Error.IsTruncated (source.read offset size) :=
  (source.failsOnly_require offset size).bind fun _ _ => failsOnly_ok _

theorem failsOnly_unpack (layout : Layout) (offset : Int) :
    FailsOnly Error.IsTruncated (source.unpack layout offset) := by
  apply (source.failsOnly_read offset layout.size).bind
  intro bytes hread
  have hlen : bytes.length = layout.size := by exact_mod_cast (read_eq_ok_iff.mp hread).1
  obtain ⟨values, hvalues⟩ := Layout.exists_decode? source.order bytes hlen
  rw [hvalues]
  exact failsOnly_ok values

-- Every piece of a table has the size of a record.
theorem length_of_mem_chunks {size count : Nat} {bytes piece : List UInt8}
    (h : bytes.length = size * count) (hpiece : piece ∈ chunks size count bytes) :
    piece.length = size := by
  induction count generalizing bytes with
  | zero => contradiction
  | succ count ih =>
    rw [Nat.mul_succ] at h
    rw [chunks] at hpiece
    rcases List.mem_cons.mp hpiece with rfl | hrest
    · rw [List.length_take]
      omega
    · exact ih (by rw [List.length_drop]; omega) hrest

-- A table can be read wherever its bytes can.
theorem exists_unpackMany {layout : Layout} (hpos : 0 < layout.size) {offset : Int} {count : Nat}
    {bytes : List UInt8} (hread : source.read offset (layout.size * count) = .ok bytes) :
    ∃ records, source.unpackMany layout offset count = .ok records := by
  have hlen : bytes.length = layout.size * count := by
    exact_mod_cast (read_eq_ok_iff.mp hread).1
  obtain ⟨records, hrecords⟩ :
      ∃ records, (chunks layout.size count bytes).mapM (layout.decode? source.order) =
        some records :=
    Option.exists_mapM_eq_some fun piece hpiece =>
      Layout.exists_decode? source.order piece (length_of_mem_chunks hlen hpiece)
  refine ⟨records, Except.bind_eq_ok_iff.mpr ⟨bytes, hread, ?_⟩⟩
  rw [if_neg (by omega), Int.toNat_natCast, hrecords]

theorem failsOnly_unpackMany {layout : Layout} (hpos : 0 < layout.size) (offset : Int)
    (count : Nat) : FailsOnly Error.IsTruncated (source.unpackMany layout offset count) := by
  cases hread : source.read offset (layout.size * count) with
  | error e =>
    rw [unpackMany, hread]
    exact failsOnly_error (source.failsOnly_read _ _ e hread)
  | ok bytes =>
    obtain ⟨records, hrecords⟩ := source.exists_unpackMany hpos hread
    rw [hrecords]
    exact failsOnly_ok records

theorem failsOnly_word (width : Nat) (offset : Int) :
    FailsOnly Error.IsTruncated (source.word width offset) := by
  apply (source.failsOnly_unpack _ offset).bind
  intro values hread
  obtain ⟨n, -, rfl⟩ := Layout.fits_word_iff.mp (unpack_eq_ok_iff.mp hread).1
  exact failsOnly_ok n

theorem failsOnly_readCounted (offset : Int) :
    FailsOnly Error.IsTruncated (source.readCounted offset) :=
  (source.failsOnly_word 1 offset).bind fun length _ =>
    (source.failsOnly_read (offset + 1) length).bind fun _ _ => failsOnly_ok _

end Source

end LinearExecutable
