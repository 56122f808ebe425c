import LinearExecutable.Fixup.Cursor
import LinearExecutable.Proofs.Bytes.Window

/-!
# What the steps of a cursor read

`Reads x fits spell` says of a step what it returns: `a` iff `a` fits and the bytes that spell it
stand ahead of the cursor, within the page's records; the cursor then stands behind them. Each field
of a record is such a step, so a record is read iff its fields are spelled one behind the other:
`decodeRecord_eq_ok_iff`.
-/

namespace LinearExecutable.Fixup

/-! ## 1. Bytes ahead of a cursor -/

namespace Cursor

/-- The cursor `n` bytes further on. -/
def advance (c : Cursor) (n : Nat) : Cursor :=
  { c with offset := c.offset + n }

/-- The given bytes stand ahead of the cursor and in front of the end of the page's records. -/
def Ahead (c : Cursor) (bytes : List UInt8) : Prop :=
  c.source.Holds c.offset bytes ∧ (bytes.length : Int) ≤ c.remaining

@[simp] theorem advance_source (c : Cursor) (n : Nat) : (c.advance n).source = c.source := rfl

@[simp] theorem advance_remaining (c : Cursor) (n : Nat) :
    (c.advance n).remaining = c.remaining - n := by
  simp only [remaining, advance]
  omega

@[simp] theorem advance_zero (c : Cursor) : c.advance 0 = c := by
  simp [advance]

@[simp] theorem advance_advance (c : Cursor) (m n : Nat) :
    (c.advance m).advance n = c.advance (m + n) := by
  simp [advance, Int.add_assoc]

-- Where something is ahead of a cursor, the cursor stands in the page's records.
theorem Ahead.inside {c : Cursor} {bytes : List UInt8} (h : c.Ahead bytes) : c.Ahead [] := by
  have hend := h.1.end_le
  have hroom := h.2
  exact ⟨Source.holds_iff.mpr ⟨h.1.nonneg, by simp only [List.length_nil]; omega, rfl⟩,
    by simp only [List.length_nil]; omega⟩

theorem ahead_append_iff {c : Cursor} {a b : List UInt8} :
    c.Ahead (a ++ b) ↔ c.Ahead a ∧ (c.advance a.length).Ahead b := by
  unfold Ahead
  rw [Source.holds_append_iff, advance_remaining, List.length_append]
  constructor
  · rintro ⟨⟨ha, hb⟩, hlen⟩
    exact ⟨⟨ha, by omega⟩, hb, by omega⟩
  · rintro ⟨⟨ha, -⟩, hb, hlen⟩
    exact ⟨⟨ha, hb⟩, by omega⟩

/-- Fields are read iff their encoding is ahead. -/
theorem take_eq_ok_iff {layout : Layout} {c next : Cursor} {values : List Value} :
    take layout c = .ok values next ↔
      layout.Fits values ∧ c.Ahead (layout.encode c.source.order values) ∧
        next = c.advance (layout.encode c.source.order values).length := by
  unfold take Ahead
  constructor
  · intro h
    split at h
    · contradiction
    · split at h
      · rename_i hroom _ found hfound
        cases h
        obtain ⟨hfits, hheld⟩ := Source.unpack_eq_ok_iff.mp hfound
        rw [Layout.length_encode hfits]
        exact ⟨hfits, ⟨hheld, by omega⟩, rfl⟩
      · contradiction
  · rintro ⟨hfits, ⟨hheld, hroom⟩, rfl⟩
    rw [Layout.length_encode hfits] at hroom ⊢
    rw [if_neg (by omega), Source.unpack_eq_ok_iff.mpr ⟨hfits, hheld⟩]
    rfl

end Cursor

/-! ## 2. Steps that read a spelling -/

/-- A step that, inside the page's records, returns exactly what fits and is spelled ahead of the
cursor, and moves behind it. -/
def Reads {α : Type} (x : Step α) (fits : α → Prop) (spell : ByteOrder → α → List UInt8) : Prop :=
  ∀ c a next, c.Ahead [] → (x c = .ok a next ↔
    fits a ∧ c.Ahead (spell c.source.order a) ∧ next = c.advance (spell c.source.order a).length)

theorem step_bind_eq_ok_iff {α β : Type} {x : Step α} {f : α → Step β} {c next : Cursor} {b : β} :
    (x >>= f) c = .ok b next ↔ ∃ a mid, x c = .ok a mid ∧ f a mid = .ok b next := by
  simp only [bind, EStateM.bind]
  cases x c with
  | error e mid => simp
  | ok a mid => simp

theorem adaptExcept_eq_ok_iff {α : Type} {x : Step α} {g : Error → Error} {c next : Cursor}
    {a : α} : x.adaptExcept g c = .ok a next ↔ x c = .ok a next := by
  simp only [EStateM.adaptExcept]
  cases x c with
  | error e mid => simp
  | ok b mid => simp

-- Fields are taken and their values made into something else.
theorem reads_take_bind {α : Type} {layout : Layout} {make : List Value → Step α} {fits : α → Prop}
    {spell : ByteOrder → α → List UInt8} (values : α → List Value)
    (hmake : ∀ vs a c next, layout.Fits vs →
      (make vs c = .ok a next ↔ fits a ∧ vs = values a ∧ next = c))
    (hvalues : ∀ a, fits a → layout.Fits (values a))
    (hspell : ∀ order a, fits a → layout.encode order (values a) = spell order a) :
    Reads (Cursor.take layout >>= make) fits spell := by
  intro c a next _
  -- `take` fixes the values that stand ahead, `make` the one thing that they spell
  rw [step_bind_eq_ok_iff]
  constructor
  · rintro ⟨vs, mid, htake, hrest⟩
    obtain ⟨hfits, hahead, rfl⟩ := Cursor.take_eq_ok_iff.mp htake
    obtain ⟨ha, rfl, rfl⟩ := (hmake vs a _ next hfits).mp hrest
    rw [hspell _ _ ha] at hahead ⊢
    exact ⟨ha, hahead, rfl⟩
  · rintro ⟨ha, hahead, rfl⟩
    rw [← hspell _ _ ha] at hahead ⊢
    have hfits := hvalues a ha
    exact ⟨_, _, Cursor.take_eq_ok_iff.mpr ⟨hfits, hahead, rfl⟩,
      (hmake _ a _ _ hfits).mpr ⟨ha, rfl, rfl⟩⟩

-- A step that reads nothing.
theorem reads_pure {α : Type} (a : α) : Reads (pure a) (· = a) fun _ _ => [] := by
  intro c b next hinside
  simp only [pure, EStateM.pure, EStateM.Result.ok.injEq, List.length_nil, hinside, true_and]
  constructor
  · rintro ⟨rfl, rfl⟩
    exact ⟨rfl, (Cursor.advance_zero c).symm⟩
  · rintro ⟨rfl, rfl⟩
    exact ⟨rfl, (Cursor.advance_zero c).symm⟩

/-! ## 3. The fields of a record -/

/-- A number that `width` bytes spell. -/
def FitsIn (width : Nat) (i : Int) : Prop :=
  0 ≤ i ∧ i < Word.bound width

instance (width : Nat) (i : Int) : Decidable (FitsIn width i) :=
  inferInstanceAs (Decidable (_ ∧ _))

/-- A number that is there iff it has a width, and then fits it. -/
def FitsWidth? : Option Nat → Option Int → Prop
  | none, none => True
  | some width, some i => FitsIn width i
  | _, _ => False

instance : (width? : Option Nat) → (number? : Option Int) → Decidable (FitsWidth? width? number?)
  | none, none => inferInstanceAs (Decidable True)
  | some width, some i => inferInstanceAs (Decidable (FitsIn width i))
  | none, some _ => inferInstanceAs (Decidable False)
  | some _, none => inferInstanceAs (Decidable False)

theorem fitsIn_natCast {width n : Nat} : FitsIn width n ↔ n < Word.bound width := by
  unfold FitsIn
  omega

theorem fitsWidth?_none_iff {number? : Option Int} : FitsWidth? none number? ↔ number? = none := by
  cases number? <;> simp [FitsWidth?]

theorem FitsWidth?.nonneg {width? : Option Nat} {i : Int} (h : FitsWidth? width? (some i)) :
    0 ≤ i := by
  cases width? with
  | none => exact h.elim
  | some width => exact h.1

-- The number of an unsigned value stands for the number itself.
private theorem toNat_eq_iff {i : Int} {n : Nat} (h : 0 ≤ i) : n = i.toNat ↔ (n : Int) = i := by
  omega

theorem reads_takeForm :
    Reads takeForm (fun form => FitsIn 1 form.source ∧ FitsIn 1 form.flags) fun order form =>
      Record.numberBytes order 1 form.source ++ Record.numberBytes order 1 form.flags := by
  apply reads_take_bind (fun form => [form.source.toNat, form.flags.toNat].map .unsigned)
  · intro vs form c next hfits
    obtain ⟨ns, hlen, hbound, rfl⟩ := Layout.fits_unsigned_iff.mp hfits
    obtain ⟨source, flags, rfl⟩ := List.length_eq_two.mp hlen
    show EStateM.Result.ok (Form.mk source flags) c = .ok form next ↔ _
    constructor
    · intro h
      cases h
      exact ⟨⟨fitsIn_natCast.mpr (hbound _ (by simp)), fitsIn_natCast.mpr (hbound _ (by simp))⟩,
        rfl, rfl⟩
    · rintro ⟨⟨hsource, hflags⟩, hvalues, rfl⟩
      obtain ⟨s, f⟩ := form
      simp only [List.map_cons, List.map_nil, List.cons.injEq, Value.unsigned.injEq,
        toNat_eq_iff hsource.1, toNat_eq_iff hflags.1] at hvalues
      rw [hvalues.1, hvalues.2.1]
  · rintro form ⟨hsource, hflags⟩
    refine Layout.fits_unsigned_iff.mpr ⟨_, rfl, ?_, rfl⟩
    simp only [List.forall_mem_cons, List.not_mem_nil, false_imp_iff, implies_true, and_true]
    exact ⟨(Int.toNat_lt hsource.1).mpr hsource.2, (Int.toNat_lt hflags.1).mpr hflags.2⟩
  · intro order form _
    exact (Layout.encode_unsigned order 1 [_, _]).trans (by simp [Record.numberBytes])

-- One number in a field of its own.
theorem reads_takeNumber {α : Type} (width : Nat) (wrap : Int → α) (number : α → Int)
    (hwrap : ∀ i, number (wrap i) = i) {make : List Value → Step α} {fits : α → Prop}
    (hmake : ∀ (n : Nat) c, make [.unsigned n] c = .ok (wrap n) c)
    (hfits : ∀ a, fits a ↔ FitsIn width (number a) ∧ a = wrap (number a)) :
    Reads (Cursor.take [.unsigned 1 width] >>= make) fits fun order a =>
      Record.numberBytes order width (number a) := by
  apply reads_take_bind (fun a => [.unsigned (number a).toNat])
  · intro vs a c next hvs
    obtain ⟨n, hn, rfl⟩ := Layout.fits_word_iff.mp hvs
    rw [hmake, hfits]
    constructor
    · intro h
      cases h
      rw [hwrap]
      exact ⟨⟨fitsIn_natCast.mpr hn, rfl⟩, rfl, rfl⟩
    · rintro ⟨⟨hnumber, hwrapped⟩, hvalues, rfl⟩
      rw [List.cons.injEq, Value.unsigned.injEq, toNat_eq_iff hnumber.1] at hvalues
      rw [hwrapped, hvalues.1]
  · intro a ha
    have hnumber := ((hfits a).mp ha).1
    exact Layout.fits_word_iff.mpr ⟨_, (Int.toNat_lt hnumber.1).mpr hnumber.2, rfl⟩
  · intro order a _
    exact Layout.encode_word order width _

theorem reads_takeSource (form : Form) :
    Reads (takeSource form)
      (fun i => if form.hasList then FitsIn 1 i else Word.SignedRange 2 i) fun order i =>
        if form.hasList then Record.numberBytes order 1 i else Record.offsetBytes order i := by
  unfold takeSource Form.sourceLayout
  cases form.hasList with
  | true =>
    -- the length of the list is read instead of an offset
    exact reads_takeNumber 1 id id (fun _ => rfl) (fun _ _ => rfl) fun _ => by simp
  | false =>
    apply reads_take_bind (fun i => [i].map .signed)
    · intro vs i c next hvs
      obtain ⟨is, hlen, hrange, rfl⟩ := Layout.fits_signed_iff.mp hvs
      obtain ⟨j, rfl⟩ := List.length_eq_one_iff.mp hlen
      show EStateM.Result.ok j c = .ok i next ↔ _
      constructor
      · intro h
        cases h
        exact ⟨hrange _ (by simp), rfl, rfl⟩
      · rintro ⟨-, hvalues, rfl⟩
        simp only [List.map_cons, List.map_nil, List.cons.injEq, Value.signed.injEq] at hvalues
        rw [hvalues.1]
    · intro i hi
      exact Layout.fits_signed_iff.mpr ⟨[i], rfl, List.forall_mem_singleton.mpr hi, rfl⟩
    · intro order i _
      exact (Layout.encode_signed order 2 [i]).trans (List.flatMap_singleton _ _)

theorem reads_takeAdditive (form : Form) :
    Reads (takeAdditive form)
      (FitsWidth? (if form.isAdditive then some form.additiveWidth else none)) fun order a? =>
        if form.isAdditive then Record.numberBytes order form.additiveWidth (a?.getD 0)
        else [] := by
  unfold takeAdditive Form.additiveLayout
  cases form.isAdditive with
  | true =>
    refine reads_takeNumber form.additiveWidth some (·.getD 0) (fun _ => rfl) (fun _ _ => rfl) ?_
    intro a?
    cases a? <;> simp [FitsWidth?]
  | false =>
    have hfits : FitsWidth? none = fun a? => a? = none := by
      ext a?
      exact fitsWidth?_none_iff
    exact hfits ▸ reads_pure none

/-! ## 4. Targets -/

/-- The numbers of a target as values of its fields. -/
def Target.toValues (t : Target) : List Value :=
  .unsigned t.first.toNat :: (t.second?.map fun i => Value.unsigned i.toNat).toList

/-- The bytes of the numbers of a target. -/
def Target.encode (order : ByteOrder) (form : Form) (t : Target) : List UInt8 :=
  Record.numberBytes order form.firstWidth t.first ++
    (match form.secondWidth? with
      | some width => Record.numberBytes order width (t.second?.getD 0)
      | none => [])

/-- A target whose numbers have the presence and the widths that a form asks for. -/
structure Target.Fits (form : Form) (t : Target) : Prop where
  type : t.type = form.targetType
  first : FitsIn form.firstWidth t.first
  second : FitsWidth? form.secondWidth? t.second?

theorem target_fits_iff {form : Form} {t : Target} :
    t.Fits form ↔ t.type = form.targetType ∧ FitsIn form.firstWidth t.first ∧
      FitsWidth? form.secondWidth? t.second? :=
  ⟨fun h => ⟨h.type, h.first, h.second⟩, fun ⟨h, h', h''⟩ => ⟨h, h', h''⟩⟩

instance (form : Form) (t : Target) : Decidable (t.Fits form) :=
  decidable_of_iff _ target_fits_iff.symm

theorem isInternal_of_secondWidth?_eq_none {form : Form} (h : form.secondWidth? = none) :
    form.targetType.isInternal = true := by
  unfold Form.secondWidth? at h
  cases htype : form.targetType with
  | internal | entry => rfl
  | importOrdinal | importName => simp [htype] at h

-- Numbers make a target of every type, but for an import without the second one.
theorem exists_target (type : TargetType) (first : Int) (second? : Option Int)
    (h : second? = none → type.isInternal = true) :
    ∃ t : Target, t.type = type ∧ t.first = first ∧ t.second? = second? := by
  cases type with
  | internal => exact ⟨.internal first second?, rfl, rfl, rfl⟩
  | entry => exact ⟨.entry first second?, rfl, rfl, rfl⟩
  | importOrdinal =>
    cases second? with
    | none => cases h rfl
    | some second => exact ⟨.byOrdinal first second, rfl, rfl, rfl⟩
  | importName =>
    cases second? with
    | none => cases h rfl
    | some second => exact ⟨.byName first second, rfl, rfl, rfl⟩

-- Values that fit the layout of a form are the numbers of a target.
theorem exists_of_targetLayout_fits {form : Form} {values : List Value}
    (h : form.targetLayout.Fits values) : ∃ t : Target, t.Fits form ∧ values = t.toValues := by
  rw [Form.targetLayout, Layout.fits_word_cons_iff] at h
  obtain ⟨first, others, hfirst, hothers, rfl⟩ := h
  cases hwidth : form.secondWidth? with
  | none =>
    -- only internal targets go without the second number
    rw [hwidth] at hothers
    obtain rfl : others = [] := hothers
    obtain ⟨t, htype, hnumber, hmissing⟩ :=
      exists_target form.targetType first none fun _ => isInternal_of_secondWidth?_eq_none hwidth
    refine ⟨t, ⟨htype, hnumber ▸ fitsIn_natCast.mpr hfirst, ?_⟩, ?_⟩
    · rw [hwidth, hmissing]
      trivial
    · rw [Target.toValues, hnumber, hmissing]
      rfl
  | some width =>
    rw [hwidth] at hothers
    obtain ⟨second, hsecond, rfl⟩ := Layout.fits_word_iff.mp hothers
    obtain ⟨t, htype, hnumber, hpresent⟩ :=
      exists_target form.targetType first (some second) fun h => by contradiction
    refine ⟨t, ⟨htype, hnumber ▸ fitsIn_natCast.mpr hfirst, ?_⟩, ?_⟩
    · rw [hwidth, hpresent]
      exact fitsIn_natCast.mpr hsecond
    · rw [Target.toValues, hnumber, hpresent]
      rfl

-- A target that fits its form is made again from its numbers.
theorem ofValues?_toValues {form : Form} {t : Target} (h : t.Fits form) :
    Target.ofValues? form.targetType t.toValues = some t := by
  have hfirst := Int.toNat_of_nonneg h.first.1
  have hsecond : ∀ i, t.second? = some i → (i.toNat : Int) = i := fun i hi =>
    Int.toNat_of_nonneg (FitsWidth?.nonneg (hi ▸ h.second))
  rw [← h.type]
  cases t with
  | internal object offset? =>
    cases offset? with
    | none => exact congrArg (fun i => some (Target.internal i none)) hfirst
    | some offset =>
      exact congrArg₂ (fun i j => some (Target.internal i (some j))) hfirst (hsecond offset rfl)
  | entry ordinal offset? =>
    cases offset? with
    | none => exact congrArg (fun i => some (Target.entry i none)) hfirst
    | some offset =>
      exact congrArg₂ (fun i j => some (Target.entry i (some j))) hfirst (hsecond offset rfl)
  | byOrdinal library ordinal =>
    exact congrArg₂ (fun i j => some (Target.byOrdinal i j)) hfirst (hsecond ordinal rfl)
  | byName library offset =>
    exact congrArg₂ (fun i j => some (Target.byName i j)) hfirst (hsecond offset rfl)

/-- Values that fit the layout of a form make exactly the targets that fit the form. -/
theorem ofValues?_eq_some_iff {form : Form} {values : List Value} {t : Target}
    (hfits : form.targetLayout.Fits values) :
    Target.ofValues? form.targetType values = some t ↔ t.Fits form ∧ values = t.toValues := by
  constructor
  · intro h
    obtain ⟨made, hmade, rfl⟩ := exists_of_targetLayout_fits hfits
    rw [ofValues?_toValues hmade, Option.some.injEq] at h
    rw [← h]
    exact ⟨hmade, rfl⟩
  · rintro ⟨ht, rfl⟩
    exact ofValues?_toValues ht

theorem fits_toValues {form : Form} {t : Target} (h : t.Fits form) :
    form.targetLayout.Fits t.toValues := by
  have hsecond := h.second
  rw [Form.targetLayout, Target.toValues, Layout.fits_word_cons_iff]
  refine ⟨_, _, (Int.toNat_lt h.first.1).mpr h.first.2, ?_, rfl⟩
  cases hwidth : form.secondWidth? <;> cases hnumber : t.second? <;>
    simp only [hwidth, hnumber, FitsWidth?] at hsecond
  · rfl
  · exact Layout.fits_word_iff.mpr ⟨_, (Int.toNat_lt hsecond.1).mpr hsecond.2, rfl⟩

theorem reads_takeTarget (form : Form) :
    Reads (takeTarget form) (Target.Fits form) fun order t => t.encode order form := by
  apply reads_take_bind Target.toValues
  · intro vs t c next hvs
    -- what is left of the step is whether the values make the target
    rw [← and_assoc, ← ofValues?_eq_some_iff hvs]
    cases Target.ofValues? form.targetType vs with
    | none => simp [throw_apply]
    | some found => simp [pure, EStateM.pure, eq_comm]
  · intro t ht
    exact fits_toValues ht
  · intro order t ht
    have hsecond := ht.second
    rw [Form.targetLayout, Target.toValues, Target.encode, Layout.encode_word_cons]
    cases hwidth : form.secondWidth? <;> cases hnumber : t.second? <;>
      simp only [hwidth, hnumber, FitsWidth?] at hsecond
    · rfl
    · exact congrArg _ (Layout.encode_word order _ _)

/-! ## 5. Source offsets -/

theorem reads_takeOffsets (form : Form) (first : Int) :
    Reads (takeOffsets form first)
      (fun offsets => if form.hasList then
          offsets.length = first.toNat ∧ ∀ i ∈ offsets, Word.SignedRange 2 i
        else offsets = [first]) fun order offsets =>
        if form.hasList then offsets.flatMap (Record.offsetBytes order) else [] := by
  unfold takeOffsets
  cases form.hasList with
  | true =>
    apply reads_take_bind (fun offsets => offsets.map .signed)
    · intro vs offsets c next hvs
      obtain ⟨is, hlen, hrange, rfl⟩ := Layout.fits_signed_iff.mp hvs
      have hsigned : (is.map Value.signed).mapM signedOffset? = some is := by
        rw [Option.mapM_eq_some_iff, List.forall₂_map_left_iff]
        exact List.forall₂_same.mpr fun _ _ => rfl
      rw [hsigned]
      show EStateM.Result.ok is c = .ok offsets next ↔ _
      constructor
      · intro h
        cases h
        exact ⟨⟨hlen, hrange⟩, rfl, rfl⟩
      · rintro ⟨-, hvalues, rfl⟩
        rw [List.map_injective_iff.mpr (fun _ _ => Value.signed.inj) hvalues]
    · rintro offsets ⟨hlen, hrange⟩
      exact Layout.fits_signed_iff.mpr ⟨offsets, hlen, hrange, rfl⟩
    · rintro order offsets ⟨hlen, -⟩
      rw [← hlen]
      exact Layout.encode_signed order 2 offsets
  | false => exact reads_pure [first]

end LinearExecutable.Fixup
