import LinearExecutable.Proofs.Bytes.Window

/-!
# Sources that end early

A source that is cut off at the end answers a read like the whole source does, or says that it is
too short; it never answers with less. `Agree` relates the two outcomes and is kept by running reads
one after another.
-/

namespace LinearExecutable

/-! ## 1. Outcomes on a cut source and on the whole one -/

/-- The failures of a file that ends too early: a window that is not there, or a header field that
points past the end. -/
def Error.IsShort : Error → Prop
  | .truncated _ => True
  | .format (.pastEnd _ _) => True
  | _ => False

/-- The outcome on a cut source, then that on the whole one: related values, the same failure, or
a failure of the cut source because it is too short. -/
inductive Agree {α β : Type} (related : α → β → Prop) : Except Error α → Except Error β → Prop
  | ok {a : α} {b : β} (h : related a b) : Agree related (.ok a) (.ok b)
  | error (e : Error) : Agree related (.error e) (.error e)
  | short {e : Error} {y : Except Error β} (h : e.IsShort) : Agree related (.error e) y

theorem agree_refl {α : Type} (x : Except Error α) : Agree Eq x x := by
  cases x with
  | ok a => exact .ok rfl
  | error e => exact .error e

-- Related outcomes stay related when the runs go on alike.
theorem Agree.bind {α β γ δ : Type} {related : α → β → Prop} {related' : γ → δ → Prop}
    {x : Except Error α} {y : Except Error β} {f : α → Except Error γ} {g : β → Except Error δ}
    (hx : Agree related x y)
    (hf : ∀ a b, x = .ok a → related a b → Agree related' (f a) (g b)) :
    Agree related' (x >>= f) (y >>= g) := by
  cases hx with
  | ok h => exact hf _ _ rfl h
  | error e => exact .error e
  | short h => exact .short h

-- Equal outcomes stay equal when the runs go on alike.
theorem Agree.bind_eq {α γ δ : Type} {related : γ → δ → Prop} {x y : Except Error α}
    {f : α → Except Error γ} {g : α → Except Error δ} (hx : Agree Eq x y)
    (hf : ∀ a, x = .ok a → Agree related (f a) (g a)) : Agree related (x >>= f) (y >>= g) := by
  apply hx.bind
  intro a b ha hab
  rw [← hab]
  exact hf a ha

theorem agree_mapM {α β : Type} {f g : α → Except Error β} (h : ∀ a, Agree Eq (f a) (g a))
    (xs : List α) : Agree Eq (xs.mapM f) (xs.mapM g) := by
  induction xs with
  | nil => exact agree_refl _
  | cons x xs ih =>
    rw [List.mapM_cons, List.mapM_cons]
    apply (h x).bind_eq
    intro b _
    exact ih.bind_eq fun _ _ => agree_refl _

/-- What was read from a cut source is read from the whole one. -/
theorem Agree.eq_of_ok {α : Type} {x y : Except Error α} {a : α} (h : Agree Eq x y)
    (hx : x = .ok a) : y = .ok a := by
  subst hx
  cases h with
  | ok h => rw [h]

/-- Of what is read from the whole source, a cut one gives all or says that it is too short. -/
theorem Agree.eq_or_short {α : Type} {x y : Except Error α} {a : α} (h : Agree Eq x y)
    (hy : y = .ok a) : x = .ok a ∨ ∃ e, x = .error e ∧ e.IsShort := by
  subst hy
  cases h with
  | ok h => exact .inl (by rw [h])
  | short h => exact .inr ⟨_, rfl, h⟩

namespace Source

/-! ## 2. Reads -/

/-- The first source is the second one, cut off somewhere. -/
structure Cuts (cut whole : Source) : Prop where
  order : cut.order = whole.order
  front : cut.toList <+: whole.toList

theorem cuts_extract (buffer : ByteArray) (order : ByteOrder) (k : Nat) :
    Cuts ⟨buffer.extract 0 k, order⟩ ⟨buffer, order⟩ := by
  refine ⟨rfl, ?_⟩
  rw [toList, toList, ByteArray.data_extract, Array.toList_extract, List.extract_eq_take_drop]
  exact List.take_prefix _ _

theorem extract_append (front rest : List UInt8) :
    ByteArray.extract ⟨(front ++ rest).toArray⟩ 0 front.length = ⟨front.toArray⟩ := by
  apply ByteArray.ext
  rw [ByteArray.data_extract, List.extract_toArray, List.extract_eq_take_drop]
  simp

section Reads

variable {cut whole : Source}

theorem Cuts.withOrder (h : cut.Cuts whole) (order : ByteOrder) :
    (cut.withOrder order).Cuts (whole.withOrder order) :=
  ⟨rfl, h.front⟩

theorem Cuts.size_le (h : cut.Cuts whole) : cut.size ≤ whole.size := by
  rw [← length_toList, ← length_toList]
  exact h.front.length_le

-- What a cut source holds stands at the same place of the whole one.
theorem Cuts.holds (h : cut.Cuts whole) {offset : Int} {bytes : List UInt8}
    (hheld : cut.Holds offset bytes) : whole.Holds offset bytes := by
  obtain ⟨rest, hrest⟩ := h.front
  obtain ⟨before, after, hcut, hoffset⟩ := hheld
  exact ⟨before, after ++ rest, by rw [← hrest, hcut, List.append_assoc _ after], hoffset⟩

theorem require_cases (source : Source) (offset size : Int) :
    source.require offset size = .ok () ∨
      source.require offset size = .error (.truncated (.window size offset source.size)) := by
  unfold require
  split
  · exact .inr rfl
  · exact .inl rfl

theorem agree_require (h : cut.Cuts whole) (offset size : Int) :
    Agree Eq (cut.require offset size) (whole.require offset size) := by
  have hsize := h.size_le
  rcases require_cases cut offset size with hok | hshort
  · have hroom := require_eq_ok_iff.mp hok
    rw [hok, require_eq_ok_iff.mpr ⟨hroom.1, hroom.2.1, by omega⟩]
    exact .ok rfl
  · rw [hshort]
    exact .short trivial

theorem agree_read (h : cut.Cuts whole) (offset size : Int) :
    Agree Eq (cut.read offset size) (whole.read offset size) := by
  rcases require_cases cut offset size with hok | hshort
  · -- the window lies in the cut source, so it is at the same place of the whole one
    have hread : cut.read offset size = .ok (cut.segment offset.toNat (offset + size).toNat) := by
      rw [read, hok]
      rfl
    obtain ⟨hlen, hheld⟩ := read_eq_ok_iff.mp hread
    rw [hread, read_eq_ok_iff.mpr ⟨hlen, h.holds hheld⟩]
    exact .ok rfl
  · rw [read, hshort]
    exact .short trivial

theorem agree_unpack (h : cut.Cuts whole) (layout : Layout) (offset : Int) :
    Agree Eq (cut.unpack layout offset) (whole.unpack layout offset) := by
  apply (agree_read h _ _).bind_eq
  intro bytes _
  rw [h.order]
  exact agree_refl _

theorem agree_unpackMany (h : cut.Cuts whole) (layout : Layout) (offset count : Int) :
    Agree Eq (cut.unpackMany layout offset count) (whole.unpackMany layout offset count) := by
  apply (agree_read h _ _).bind_eq
  intro bytes _
  rw [h.order]
  exact agree_refl _

theorem agree_word (h : cut.Cuts whole) (width : Nat) (offset : Int) :
    Agree Eq (cut.word width offset) (whole.word width offset) :=
  (agree_unpack h _ _).bind_eq fun _ _ => agree_refl _

theorem agree_readCounted (h : cut.Cuts whole) (offset : Int) :
    Agree Eq (cut.readCounted offset) (whole.readCounted offset) := by
  apply (agree_word h 1 offset).bind_eq
  intro length _
  exact (agree_read h _ _).bind_eq fun _ _ => agree_refl _

end Reads

end Source

end LinearExecutable
