import LinearExecutable.Proofs.Bytes.Refusal
import LinearExecutable.Proofs.Fixup.Codec

/-!
# How far a record is read

The two bytes of its form fix which fields a record has, and the length of its list of source offsets
is the only number in it that another field depends on: `Form.fields`. Reading a record passes these
fields one by one. It either passes all of them, and then the record has the size that its form
foretells, or it stops in front of the first one that the page or the source has no room for.
-/

namespace LinearExecutable

namespace Fixup

/-! ## 1. The fields of a record -/

namespace Form

/-- The list of source offsets, for a record that has one. -/
def listLayout (form : Form) (count : Nat) : Layout :=
  if form.hasList then [.signed count 2] else []

/-- The fields of a record in the order in which they are read; `count` is the length of its list of
source offsets. A field that the form does without takes up no bytes. -/
def fields (form : Form) (count : Nat) : List Layout :=
  [[.unsigned 2 1], form.sourceLayout, form.targetLayout, form.additiveLayout,
    form.listLayout count]

/-- The number of bytes of fields one behind the other. -/
def span (layouts : List Layout) : Nat := (layouts.map Layout.size).sum

-- The size that a form foretells is that of its fields.
theorem recordSize_eq (form : Form) (count : Nat) :
    form.recordSize count = span (form.fields count) := by
  have hlist : (Layout.size (form.listLayout count) : Int) =
      if form.hasList then 2 * (count : Int) else 0 := by
    unfold listLayout
    split
    · simp only [Layout.size, Field.size]
      omega
    · rfl
  simp only [recordSize, fields, span, List.map_cons, List.map_nil, List.sum_cons, List.sum_nil,
    Layout.size, Field.size]
  push_cast
  rw [hlist]
  omega

theorem le_size_sourceLayout (form : Form) :
    (if form.hasList then 1 else 2) ≤ form.sourceLayout.size := by
  unfold sourceLayout
  split <;> exact Nat.le_refl _

theorem one_le_size_targetLayout (form : Form) : 1 ≤ form.targetLayout.size := by
  have hwidth : 1 ≤ form.firstWidth := by
    unfold firstWidth
    split <;> decide
  simp only [targetLayout, Layout.size, Field.size]
  omega

/-- No record is smaller than four bytes. -/
theorem four_le_recordSize (form : Form) (count : Nat) : 4 ≤ form.recordSize count := by
  have hsource := form.le_size_sourceLayout
  have htarget := form.one_le_size_targetLayout
  unfold recordSize
  split at hsource <;> omega

/-- The two bytes at an offset are the form. -/
def StandsAt (form : Form) (source : Source) (offset : Int) : Prop :=
  ∃ first second, source.word 1 offset = .ok first ∧ source.word 1 (offset + 1) = .ok second ∧
    form = ⟨first, second⟩

end Form

/-! ## 2. Fields that are passed -/

namespace Cursor

/-- The fields are read completely, one after another, and leave the cursor behind the last one. -/
inductive Passes : Cursor → List Layout → Cursor → Prop
  | nil (c : Cursor) : Passes c [] c
  | cons {c mid last : Cursor} {layout : Layout} {layouts : List Layout} {values : List Value}
    (first : take layout c = .ok values mid) (rest : Passes mid layouts last) :
    Passes c (layout :: layouts) last

theorem inside_of_take {layout : Layout} {c next : Cursor} {values : List Value}
    (h : take layout c = .ok values next) : c.Ahead [] ∧ next.Ahead [] := by
  obtain ⟨-, hahead, rfl⟩ := take_eq_ok_iff.mp h
  exact ⟨hahead.inside, hahead.advance⟩

/-- Fields that are passed lie between the two cursors. -/
theorem Passes.eq_advance {c last : Cursor} {layouts : List Layout} (h : c.Passes layouts last) :
    last = c.advance (Form.span layouts) := by
  induction h with
  | nil c => exact c.advance_zero.symm
  | @cons c mid last layout layouts values first _ ih =>
    obtain ⟨hfits, -, rfl⟩ := take_eq_ok_iff.mp first
    rw [ih, Layout.length_encode hfits, advance_advance]
    rfl

/-- Fields that are passed lie in the source and in the page's records. -/
theorem Passes.inside {c last : Cursor} {layouts : List Layout} (h : c.Passes layouts last)
    (hsome : layouts ≠ []) : c.Ahead [] ∧ last.Ahead [] := by
  induction h with
  | nil => contradiction
  | @cons c mid last layout layouts values first rest ih =>
    have hfirst := inside_of_take first
    refine ⟨hfirst.1, ?_⟩
    cases rest with
    | nil => exact hfirst.2
    | cons => exact (ih (by simp)).2

theorem Passes.snoc {c mid last : Cursor} {layouts : List Layout} {layout : Layout}
    {values : List Value} (h : c.Passes layouts mid) (next : take layout mid = .ok values last) :
    c.Passes (layouts ++ [layout]) last := by
  induction h with
  | nil => exact .cons next (.nil last)
  | cons first _ ih => exact .cons first (ih next)

/-- Reading fields fails only because the page's records or the source end in them, and leaves the
cursor in front of them. -/
theorem take_eq_error {layout : Layout} {c next : Cursor} {e : Error}
    (h : take layout c = .error e next) :
    next = c ∧ (c.remaining < layout.size ∧ e = .pageOverrun (layout.size - c.remaining) ∨
      layout.size ≤ c.remaining ∧ (c.offset < 0 ∨ c.source.size < c.offset + layout.size) ∧
        e = .truncated (.window layout.size c.offset c.source.size)) := by
  unfold take at h
  split at h
  · rename_i hover
    cases h
    exact ⟨rfl, .inl ⟨hover, rfl⟩⟩
  · split at h
    · contradiction
    · rename_i hroom _ _ hread
      cases h
      obtain ⟨houtside, rfl⟩ := Source.unpack_eq_error hread
      exact ⟨rfl, .inr ⟨by omega, houtside, rfl⟩⟩

end Cursor

/-! ## 3. Steps that read the fields of a layout -/

/-- From a cursor, a step succeeds and fails as reading the fields of a layout does. -/
def Takes {α : Type} (x : Step α) (layout : Layout) (c : Cursor) : Prop :=
  match x c with
  | .ok _ next => ∃ values, Cursor.take layout c = .ok values next
  | .error e next => Cursor.take layout c = .error e next

section Steps

variable {α β : Type} {x : Step α} {layout : Layout} {c next : Cursor} {e : Error}

theorem Takes.ok {a : α} (h : Takes x layout c) (hx : x c = .ok a next) :
    ∃ values, Cursor.take layout c = .ok values next := by
  rw [Takes, hx] at h
  exact h

theorem Takes.error (h : Takes x layout c) (hx : x c = .error e next) :
    Cursor.take layout c = .error e next := by
  rw [Takes, hx] at h
  exact h

theorem step_bind_eq_error_iff {f : α → Step β} :
    (x >>= f) c = .error e next ↔
      x c = .error e next ∨ ∃ a mid, x c = .ok a mid ∧ f a mid = .error e next := by
  simp only [bind, EStateM.bind]
  cases x c with
  | error e mid => simp
  | ok a mid => simp

-- A run that goes on behind the fields has passed them.
theorem Takes.bind_eq_ok {f : α → Step β} {start mid : Cursor} {done : List Layout} {b : β}
    (h : Takes x layout mid) (hpassed : start.Passes done mid) (hrun : (x >>= f) mid = .ok b next) :
    ∃ a last, x mid = .ok a last ∧ start.Passes (done ++ [layout]) last ∧ last.Ahead [] ∧
      f a last = .ok b next := by
  obtain ⟨a, last, hx, hf⟩ := step_bind_eq_ok_iff.mp hrun
  obtain ⟨values, htake⟩ := h.ok hx
  exact ⟨a, last, hx, hpassed.snoc htake, (Cursor.inside_of_take htake).2, hf⟩

-- A run that fails does so in the fields or behind them.
theorem Takes.bind_eq_error {f : α → Step β} {start mid : Cursor} {done : List Layout}
    (h : Takes x layout mid) (hpassed : start.Passes done mid)
    (hrun : (x >>= f) mid = .error e next) :
    Cursor.take layout mid = .error e next ∨
      ∃ a last, x mid = .ok a last ∧ start.Passes (done ++ [layout]) last ∧ last.Ahead [] ∧
        f a last = .error e next := by
  rcases step_bind_eq_error_iff.mp hrun with hx | ⟨a, last, hx, hf⟩
  · exact .inl (h.error hx)
  · obtain ⟨values, htake⟩ := h.ok hx
    exact .inr ⟨a, last, hx, hpassed.snoc htake, (Cursor.inside_of_take htake).2, hf⟩

theorem adaptExcept_eq_error_iff {g : Error → Error} :
    x.adaptExcept g c = .error e next ↔ ∃ cause, x c = .error cause next ∧ e = g cause := by
  simp only [EStateM.adaptExcept]
  cases x c with
  | error cause mid => simp [and_comm, eq_comm]
  | ok a mid => simp

-- Fields are taken and made into something, which works for all values that fit them.
theorem takes_take_bind {make : List Value → Step α}
    (hmake : ∀ values c, layout.Fits values → ∃ a, make values c = .ok a c) (c : Cursor) :
    Takes (Cursor.take layout >>= make) layout c := by
  unfold Takes
  simp only [bind, EStateM.bind]
  cases hcase : Cursor.take layout c with
  | error e mid => rfl
  | ok values mid =>
    obtain ⟨a, ha⟩ := hmake values mid (Cursor.take_eq_ok_iff.mp hcase).1
    simp only [ha]
    exact ⟨values, rfl⟩

-- A field that is not there is read within the page's records.
theorem takes_pure (a : α) (hinside : c.Ahead []) : Takes (pure a) [] c :=
  ⟨[], Cursor.take_eq_ok_iff.mpr ⟨rfl, hinside, c.advance_zero.symm⟩⟩

theorem takes_takeForm (c : Cursor) : Takes takeForm [.unsigned 2 1] c := by
  apply takes_take_bind
  intro values c hfits
  obtain ⟨ns, hlen, -, rfl⟩ := Layout.fits_unsigned_iff.mp hfits
  obtain ⟨source, flags, rfl⟩ := List.length_eq_two.mp hlen
  exact ⟨⟨source, flags⟩, rfl⟩

theorem takes_takeSource (form : Form) (c : Cursor) :
    Takes (takeSource form) form.sourceLayout c := by
  apply takes_take_bind
  intro values c hfits
  unfold Form.sourceLayout at hfits
  split at hfits
  · obtain ⟨n, -, rfl⟩ := Layout.fits_word_iff.mp hfits
    exact ⟨n, rfl⟩
  · obtain ⟨is, hlen, -, rfl⟩ := Layout.fits_signed_iff.mp hfits
    obtain ⟨i, rfl⟩ := List.length_eq_one_iff.mp hlen
    exact ⟨i, rfl⟩

theorem takes_takeTarget (form : Form) (c : Cursor) :
    Takes (takeTarget form) form.targetLayout c := by
  apply takes_take_bind
  intro values c hfits
  obtain ⟨t, ht, rfl⟩ := exists_of_targetLayout_fits hfits
  rw [ofValues?_toValues ht]
  exact ⟨t, rfl⟩

theorem takes_takeAdditive (form : Form) (hinside : c.Ahead []) :
    Takes (takeAdditive form) form.additiveLayout c := by
  unfold takeAdditive Form.additiveLayout
  split
  · apply takes_take_bind
    intro values c hfits
    obtain ⟨n, -, rfl⟩ := Layout.fits_word_iff.mp hfits
    exact ⟨some n, rfl⟩
  · exact takes_pure none hinside

theorem takes_takeOffsets (form : Form) (first : Int) (hinside : c.Ahead []) :
    Takes (takeOffsets form first) (form.listLayout first.toNat) c := by
  unfold takeOffsets Form.listLayout
  split
  · apply takes_take_bind
    intro values c hfits
    obtain ⟨is, -, -, rfl⟩ := Layout.fits_signed_iff.mp hfits
    obtain ⟨offsets, hoffsets⟩ : ∃ offsets, (is.map Value.signed).mapM signedOffset? =
        some offsets :=
      Option.exists_mapM_eq_some (List.forall_mem_map.mpr fun i _ => ⟨i, rfl⟩)
    rw [hoffsets]
    exact ⟨offsets, rfl⟩
  · exact takes_pure [first] hinside

end Steps

/-! ## 4. Records -/

-- The form that is read is the one that stands at the cursor.
theorem standsAt_of_takeForm {c mid : Cursor} {form : Form} (h : takeForm c = .ok form mid) :
    form.StandsAt c.source c.offset := by
  obtain ⟨⟨hsource, hflags⟩, hahead, -⟩ := (reads_takeForm _ _ _ (inside_of_takeForm h)).mp h
  obtain ⟨hfirst, hsecond⟩ := Source.holds_append_iff.mp hahead.1
  rw [Record.numberBytes, ByteOrder.length_wordBytes] at hsecond
  refine ⟨form.source.toNat, form.flags.toNat,
    Source.word_eq_ok_iff.mpr ⟨(Int.toNat_lt hsource.1).mpr hsource.2, hfirst⟩,
    Source.word_eq_ok_iff.mpr ⟨(Int.toNat_lt hflags.1).mpr hflags.2, hsecond⟩, ?_⟩
  rw [Int.toNat_of_nonneg hsource.1, Int.toNat_of_nonneg hflags.1]

-- The length of a list of source offsets stands right behind the form.
theorem count_of_takeSource {form : Form} {c mid : Cursor} {first : Int}
    (hinside : (c.advance 2).Ahead []) (h : takeSource form (c.advance 2) = .ok first mid)
    (hlist : form.hasList = true) : c.source.word 1 (c.offset + 2) = .ok first.toNat := by
  obtain ⟨hfits, ⟨hheld, -⟩, -⟩ := (reads_takeSource form _ _ _ hinside).mp h
  simp only [hlist, if_true, Cursor.advance, Nat.cast_ofNat] at hfits hheld
  exact Source.word_eq_ok_iff.mpr ⟨(Int.toNat_lt hfits.1).mpr hfits.2, hheld⟩

/-- The fields in front of `field` are passed. The form, and the length of the list of source
offsets, are the ones that stand there, as soon as they are passed. -/
structure Cursor.Before (c : Cursor) (form : Form) (count : Nat) (done : List Layout)
    (field : Layout) (next : Cursor) : Prop where
  fields : done ++ [field] <+: form.fields count
  passed : c.Passes done next
  stands : done ≠ [] → form.StandsAt c.source c.offset ∧ form.fault? = none
  count : 2 ≤ done.length → form.hasList = true →
    c.source.word 1 (c.offset + 2) = .ok count

/-- How far a record of a page is read that is refused with a failure: up to a form that cannot be
decoded, or up to a field that the page's records or the source have no room for. -/
inductive Cursor.Halts (page : Int) (c next : Cursor) : Error → Prop
  | fault {form : Form} {fault : FixupFault} (passed : c.Passes [[.unsigned 2 1]] next)
    (stands : form.StandsAt c.source c.offset) (h : form.fault? = some fault) :
    Halts page c next (.unsupportedFixup
      ⟨fault, some form.source, some form.flags, some page, some c.offset⟩)
  | overrun {form : Form} {count : Nat} {done : List Layout} {field : Layout}
    (before : c.Before form count done field next) (h : next.remaining < field.size) :
    Halts page c next (.unsupportedFixup
      ⟨.overrun c.offset (field.size - next.remaining),
        if done = [] then none else some form.source, if done = [] then none else some form.flags,
        some page, some c.offset⟩)
  | truncated {form : Form} {count : Nat} {done : List Layout} {field : Layout}
    (before : c.Before form count done field next) (room : field.size ≤ next.remaining)
    (h : next.offset < 0 ∨ next.source.size < next.offset + field.size) :
    Halts page c next (.truncated (.window field.size next.offset next.source.size))

-- A field that is not read halts the record that it belongs to.
theorem halts_of_take {page : Int} {c mid next : Cursor} {form : Form} {count : Nat}
    {done : List Layout} {field : Layout} {cause : Error}
    (before : c.Before form count done field mid)
    (h : Cursor.take field mid = .error cause next) :
    c.Halts page next
      (nameOverrun c.offset page (if done = [] then none else some form) cause) := by
  obtain ⟨rfl, ⟨hover, rfl⟩ | ⟨hroom, houtside, rfl⟩⟩ := Cursor.take_eq_error h
  · have hhalts : c.Halts page next _ := .overrun before hover
    split <;> rename_i hdone <;> simp only [hdone, if_true, if_false] at hhalts <;> exact hhalts
  · exact .truncated before hroom houtside

/-- The form is passed, and what follows is read from behind it. -/
theorem passes_of_takeForm {c mid : Cursor} {form : Form} (h : takeForm c = .ok form mid) :
    c.Passes [[.unsigned 2 1]] mid ∧ mid.Ahead [] ∧ mid = c.advance 2 := by
  obtain ⟨values, htake⟩ := (takes_takeForm c).ok h
  have hpassed : c.Passes [[.unsigned 2 1]] mid := .cons htake (.nil mid)
  exact ⟨hpassed, (Cursor.inside_of_take htake).2, hpassed.eq_advance⟩

/-- A record whose form is read, and whose fields are not, is halted in front of one of them. -/
theorem halts_of_takeFields {page : Int} {c mid next : Cursor} {form : Form} {cause : Error}
    (hform : takeForm c = .ok form mid) (haccepted : form.fault? = none)
    (h : takeFields form c.offset mid = .error cause next) :
    c.Halts page next (nameOverrun c.offset page (some form) cause) := by
  have hstands := standsAt_of_takeForm hform
  obtain ⟨hpassed, hinside, rfl⟩ := passes_of_takeForm hform
  rcases (takes_takeSource form _).bind_eq_error hpassed h with
    h | ⟨first, c₁, h₁, hpassed₁, -, h⟩
  · exact halts_of_take ⟨⟨[form.targetLayout, form.additiveLayout, form.listLayout 0], rfl⟩,
      hpassed, fun _ => ⟨hstands, haccepted⟩, fun h => by contradiction⟩ h
  -- from here on the length of the list of source offsets is known
  have hbefore : ∀ (done : List Layout) (field : Layout) (last : Cursor),
      done ++ [field] <+: form.fields first.toNat → c.Passes done last →
        c.Before form first.toNat done field last := fun _ _ _ hfields hdone =>
    ⟨hfields, hdone, fun _ => ⟨hstands, haccepted⟩, fun _ => count_of_takeSource hinside h₁⟩
  rcases (takes_takeTarget form c₁).bind_eq_error hpassed₁ h with
    h | ⟨target, c₂, -, hpassed₂, hinside₂, h⟩
  · exact halts_of_take
      (hbefore _ _ _ ⟨[form.additiveLayout, form.listLayout first.toNat], rfl⟩ hpassed₁) h
  rcases (takes_takeAdditive form hinside₂).bind_eq_error hpassed₂ h with
    h | ⟨additive?, c₃, -, hpassed₃, hinside₃, h⟩
  · exact halts_of_take (hbefore _ _ _ ⟨[form.listLayout first.toNat], rfl⟩ hpassed₂) h
  rcases (takes_takeOffsets form first hinside₃).bind_eq_error hpassed₃ h with
    h | ⟨offsets, c₄, -, -, -, h⟩
  · exact halts_of_take (hbefore _ _ _ ⟨[], rfl⟩ hpassed₃) h
  contradiction

/-- A record whose fields are read has passed all of them. -/
theorem passes_of_takeFields {c mid next : Cursor} {form : Form} {start : Int} {r : Record}
    (hform : takeForm c = .ok form mid) (h : takeFields form start mid = .ok r next) :
    r.form = form ∧ c.Passes (form.fields r.offsets.length) next ∧
      (form.hasList = true → c.source.word 1 (c.offset + 2) = .ok r.offsets.length) := by
  obtain ⟨hpassed, hinside, rfl⟩ := passes_of_takeForm hform
  obtain ⟨first, c₁, h₁, hpassed₁, -, h⟩ := (takes_takeSource form _).bind_eq_ok hpassed h
  obtain ⟨target, c₂, -, hpassed₂, hinside₂, h⟩ :=
    (takes_takeTarget form c₁).bind_eq_ok hpassed₁ h
  obtain ⟨additive?, c₃, -, hpassed₃, hinside₃, h⟩ :=
    (takes_takeAdditive form hinside₂).bind_eq_ok hpassed₂ h
  obtain ⟨offsets, c₄, h₄, hpassed₄, -, h⟩ :=
    (takes_takeOffsets form first hinside₃).bind_eq_ok hpassed₃ h
  cases h
  refine ⟨rfl, ?_⟩
  -- as many offsets are read as the number in front of the target says
  have hoffsets := ((reads_takeOffsets form first _ _ _ hinside₃).mp h₄).1
  cases hlist : form.hasList with
  | true =>
    simp only [hlist, if_true] at hoffsets
    rw [hoffsets.1]
    exact ⟨hpassed₄, fun _ => count_of_takeSource hinside h₁ hlist⟩
  | false =>
    refine ⟨?_, fun h => by contradiction⟩
    have hnone : ∀ count, form.listLayout count = [] := fun count => by
      rw [Form.listLayout, hlist, if_neg Bool.false_ne_true]
    rw [Form.fields, hnone]
    rwa [hnone] at hpassed₄

/-- A record that is refused is halted. -/
theorem halts_of_decodeRecord {page : Int} {c next : Cursor} {e : Error}
    (h : decodeRecord page c = .error e next) : c.Halts page next e := by
  replace h : (takeForm.adaptExcept (nameOverrun c.offset page none) >>= _) c = .error e next := h
  rw [step_bind_eq_error_iff] at h
  rcases h with h | ⟨form, mid, hform, h⟩
  · obtain ⟨cause, hcause, rfl⟩ := adaptExcept_eq_error_iff.mp h
    -- nothing is known of the record yet
    have hbefore : c.Before ⟨0, 0⟩ 0 [] [.unsigned 2 1] c :=
      ⟨⟨_, rfl⟩, .nil c, fun h => absurd rfl h, fun h => by contradiction⟩
    exact halts_of_take hbefore ((takes_takeForm c).error hcause)
  · rw [adaptExcept_eq_ok_iff] at hform
    cases hfault : form.fault? with
    | some fault =>
      rw [hfault] at h
      cases h
      exact .fault (passes_of_takeForm hform).1 (standsAt_of_takeForm hform) hfault
    | none =>
      rw [hfault] at h
      obtain ⟨cause, hcause, rfl⟩ := adaptExcept_eq_error_iff.mp h
      exact halts_of_takeFields hform hfault hcause

/-- What a record that is read leaves behind: it has passed its fields, it takes up as many bytes as
its form foretells, and these lie in the source and among the page's records. -/
structure Cursor.ReadsWhole (c : Cursor) (r : Record) (next : Cursor) : Prop where
  passed : c.Passes (r.form.fields r.offsets.length) next
  size : r.size = r.form.recordSize r.offsets.length
  consumed : r.size = next.offset - c.offset
  four_le : 4 ≤ r.size
  nonneg : 0 ≤ c.offset
  le_sourceSize : next.offset ≤ c.source.size
  le_stop : next.offset ≤ c.stop
  same : next.source = c.source ∧ next.stop = c.stop
  stands : r.form.StandsAt c.source c.offset
  count : if r.form.hasList then c.source.word 1 (c.offset + 2) = .ok r.offsets.length
    else r.offsets.length = 1

theorem readsWhole_of_decodeRecord {page : Int} {c next : Cursor} {r : Record}
    (h : decodeRecord page c = .ok r next) : c.ReadsWhole r next := by
  obtain ⟨hwell, hsize, hahead, hnext⟩ := decodeRecord_eq_ok_iff.mp h
  simp only [decodeRecord, step_bind_eq_ok_iff, get_apply] at h
  obtain ⟨_, _, hget, form, mid, hform, hfields⟩ := h
  cases hget
  rw [adaptExcept_eq_ok_iff] at hform
  cases hfault : form.fault? with
  | some fault => simp [hfault, throw_apply] at hfields
  | none =>
    simp only [hfault, adaptExcept_eq_ok_iff] at hfields
    obtain ⟨rfl, hpassed, hcount⟩ := passes_of_takeFields hform hfields
    have hend := hpassed.eq_advance
    have hinside := (hpassed.inside (by simp [Form.fields])).2
    have hle := hinside.1.end_le
    have hroom := hinside.2
    have hspan := r.form.recordSize_eq r.offsets.length
    have hsame : next.source = c.source ∧ next.stop = c.stop := by
      rw [hend]
      exact ⟨rfl, rfl⟩
    have hconsumed : r.size = next.offset - c.offset := by
      rw [hsize, hnext, Cursor.advance, add_sub_cancel_left]
    have hoffset : next.offset = c.offset + Form.span (r.form.fields r.offsets.length) :=
      congrArg Cursor.offset hend
    have hfour := r.form.four_le_recordSize r.offsets.length
    rw [hsame.1] at hle
    simp only [List.length_nil, Cursor.remaining, hsame.2] at hle hroom
    refine ⟨hpassed, by omega, hconsumed, by omega, hahead.1.nonneg, by omega, by omega, hsame,
      standsAt_of_takeForm hform, ?_⟩
    have hwellCount := hwell.count
    split at hwellCount <;> rename_i hlist
    · rw [if_pos hlist]
      exact hcount hlist
    · rwa [if_neg hlist]

/-- What a record at `offset` of the records of a page is refused with: as unsupported, with the page
and the place. -/
def RefusedAt (page offset : Int) (e : Error) : Prop :=
  ∃ fixup, e = .unsupportedFixup fixup ∧ fixup.page? = some page ∧ fixup.offset? = some offset

/-- What a record that is refused leaves behind: the cursor stands behind the fields that were read
completely, among the page's records if there are any, and the failure names the place and the page
of the record unless the source ends in it. -/
structure Cursor.StopsShort (page : Int) (c : Cursor) (e : Error) (next : Cursor) : Prop where
  halts : c.Halts page next e
  failure : RefusedAt page c.offset e ∨
    e.IsTruncated ∧ (c.offset < 0 ∨ c.source.size < c.stop)
  le : c.offset ≤ next.offset
  le_stop : next.offset ≠ c.offset → next.offset ≤ c.stop
  same : next.source = c.source ∧ next.stop = c.stop

theorem Cursor.Halts.passed {page : Int} {c next : Cursor} {e : Error} (h : c.Halts page next e) :
    ∃ done, c.Passes done next := by
  cases h with
  | fault passed => exact ⟨_, passed⟩
  | overrun before => exact ⟨_, before.passed⟩
  | truncated before => exact ⟨_, before.passed⟩

-- What is passed lies between the start of the record and the end of the page's records.
theorem Cursor.Passes.bounds {c next : Cursor} {done : List Layout} (h : c.Passes done next) :
    c.offset ≤ next.offset ∧ (next.offset ≠ c.offset → 0 ≤ c.offset ∧ next.offset ≤ c.stop) ∧
      next.source = c.source ∧ next.stop = c.stop := by
  have hend := h.eq_advance
  have hoffset : next.offset = c.offset + Form.span done := congrArg Cursor.offset hend
  have hstop : next.stop = c.stop := by rw [hend]; rfl
  refine ⟨by omega, fun hmoved => ?_, by rw [hend]; rfl, hstop⟩
  have hsome : done ≠ [] := by
    rintro rfl
    exact hmoved (by simpa [Form.span] using hoffset)
  obtain ⟨hinside, hroom⟩ := h.inside hsome
  have hleft := hroom.2
  simp only [List.length_nil, remaining, hstop] at hleft
  exact ⟨hinside.1.nonneg, by omega⟩

theorem stopsShort_of_decodeRecord {page : Int} {c next : Cursor} {e : Error}
    (h : decodeRecord page c = .error e next) : c.StopsShort page e next := by
  have hhalts := halts_of_decodeRecord h
  obtain ⟨done, hpassed⟩ := hhalts.passed
  obtain ⟨hle, hmoved, hsame⟩ := hpassed.bounds
  refine ⟨hhalts, ?_, hle, fun hne => (hmoved hne).2, hsame⟩
  cases hhalts with
  | fault => exact .inl ⟨_, rfl, rfl, rfl⟩
  | overrun => exact .inl ⟨_, rfl, rfl, rfl⟩
  | @truncated form count done field before room houtside =>
    refine .inr ⟨⟨_, rfl⟩, ?_⟩
    -- the field is among the page's records, so these reach past the source themselves
    rw [Cursor.remaining, hsame.2] at room
    rw [hsame.1] at houtside
    by_cases hne : next.offset = c.offset <;> omega

/-- Inside the source, a record that cannot be read is refused at the place where it starts. -/
theorem refusedAt_of_decodeRecord {page : Int} {c next : Cursor} {e : Error}
    (h : decodeRecord page c = .error e next) (hnonneg : 0 ≤ c.offset)
    (hle : c.stop ≤ c.source.size) : RefusedAt page c.offset e := by
  rcases (stopsShort_of_decodeRecord h).failure with hrefused | ⟨-, houtside⟩
  · exact hrefused
  · omega

/-! ## 5. The records of a page -/

/-- Rounds of reading the records of a page: while bytes are left, one more record is read. -/
inductive Rounds (page : Int) : Cursor → List Record → Cursor → Prop
  | none (c : Cursor) : Rounds page c [] c
  | more {c mid last : Cursor} {r : Record} {records : List Record} (left : 0 < c.remaining)
    (read : decodeRecord page c = .ok r mid) (rest : Rounds page mid records last) :
    Rounds page c (r :: records) last

/-- There is no further round: no bytes are left, or the record that comes next is refused. -/
def Finished (page : Int) (last : Cursor) : Option Error → Prop
  | none => last.remaining ≤ 0
  | some e => 0 < last.remaining ∧ ∃ next, decodeRecord page last = .error e next

/-- Every round takes four bytes or more, so there are no more rounds than that allows. -/
theorem Rounds.four_mul_le {page : Int} {c last : Cursor} {records : List Record}
    (h : Rounds page c records last) : 4 * records.length ≤ c.remaining.toNat := by
  induction h with
  | none => simp
  | @more c mid last r records left read _ ih =>
    have hread := readsWhole_of_decodeRecord read
    have hconsumed := hread.consumed
    have hfour := hread.four_le
    have hstop := hread.le_stop
    have hsame := hread.same.2
    rw [List.length_cons]
    simp only [Cursor.remaining] at left ih ⊢
    omega

/-- The rounds from any cursor on come to an end, with the records of the page. -/
theorem rounds_recordsFrom (page : Int) (c : Cursor) :
    ∃ last, Rounds page c (recordsFrom page c).records last ∧
      Finished page last (recordsFrom page c).failure? := by
  fun_induction recordsFrom page c with
  | case1 c hdone => exact ⟨c, .none c, hdone⟩
  | case2 c hmore record next hread rest ih =>
    obtain ⟨last, hrounds, hfinished⟩ := ih
    exact ⟨last, .more (Int.not_le.mp hmore) hread hrounds, hfinished⟩
  | case3 c hmore e next hread => exact ⟨c, .none c, Int.not_le.mp hmore, next, hread⟩

/-- A page has no more records than a quarter of its bytes; one without bytes has none. -/
theorem length_records_le (source : Source) (offset length page : Int) :
    (decodeRange source offset length page).records.length ≤ length.toNat / 4 := by
  unfold decodeRange
  split
  · exact Nat.zero_le _
  · split
    · exact Nat.zero_le _
    · obtain ⟨last, hrounds, -⟩ := rounds_recordsFrom page ⟨source, offset, offset + length⟩
      have hfour := hrounds.four_mul_le
      rw [Cursor.remaining, add_sub_cancel_left] at hfour
      omega

/-- Reading a record, from any cursor. A record that is read has the size that its form and the
number of its source offsets foretell, and has passed that many bytes, four or more, of the source
and of the page. A record that is refused has passed the fields in front of the one that is missing.
So no run of rounds through a page has more than a quarter as many as there are bytes, every run
that is started ends, and a page has no more records than that, whatever its length. -/
theorem decodeRecord_extent (page : Int) (c : Cursor) :
    (match decodeRecord page c with
      | .ok r next => c.ReadsWhole r next
      | .error e next => c.StopsShort page e next) ∧
    (∀ records last, Rounds page c records last → records.length ≤ c.remaining.toNat / 4) ∧
    (∃ last, Rounds page c (recordsFrom page c).records last ∧
      Finished page last (recordsFrom page c).failure?) ∧
    ∀ length, (decodeRange c.source c.offset length page).records.length ≤ length.toNat / 4 := by
  refine ⟨?_, fun records last hrounds => ?_, rounds_recordsFrom page c,
    fun length => length_records_le c.source c.offset length page⟩
  · cases hrecord : decodeRecord page c with
    | ok r next => exact readsWhole_of_decodeRecord hrecord
    | error e next => exact stopsShort_of_decodeRecord hrecord
  · have hfour := hrounds.four_mul_le
    omega

end Fixup

end LinearExecutable
