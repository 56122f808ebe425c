import LinearExecutable.Proofs.Fixup.Pages

/-!
# What the records of a page depend on

Reading a page looks at nothing but the bytes of the page. Two cursors in front of the same bytes
return the same records; when a record cannot be read, the failures differ in nothing but the place
of the record. And what a page comes to is decided piece by piece: behind a piece that is decoded,
the rest is read as a page of its own.
-/

namespace LinearExecutable

/-! ## 1. Failures at another place -/

/-- The fault of a record that stands `shift` bytes further on. -/
def FixupFault.shifted (shift : Int) : FixupFault → FixupFault
  | .overrun start excess => .overrun (start + shift) excess
  | fault => fault

/-- The failure of a record that stands `shift` bytes further on. -/
def UnsupportedFixup.shifted (shift : Int) (e : UnsupportedFixup) : UnsupportedFixup :=
  { e with fault := e.fault.shifted shift, offset? := e.offset?.map (· + shift) }

/-- The failure of a page whose records stand `shift` bytes further on. -/
def Error.shifted (shift : Int) : Error → Error
  | .unsupportedFixup e => .unsupportedFixup (e.shifted shift)
  | e => e

@[simp] theorem Error.shifted_zero (e : Error) : e.shifted 0 = e := by
  cases e with
  | unsupportedFixup e =>
    obtain ⟨fault, source?, flags?, page?, offset?⟩ := e
    cases fault <;> simp [shifted, UnsupportedFixup.shifted, FixupFault.shifted]
  | _ => rfl

namespace Fixup

/-! ## 2. Cursors in front of the same bytes -/

/-- The second cursor stands `shift` bytes further on than the first; both have the same bytes up to
the end of the page's records. -/
structure Cursor.Alike (shift : Int) (c c' : Cursor) : Prop where
  order : c'.source.order = c.source.order
  offset : c'.offset = c.offset + shift
  stop : c'.stop = c.stop + shift
  window : ∃ bytes : List UInt8, (bytes.length : Int) = c.remaining ∧
    c.source.Holds c.offset bytes ∧ c'.source.Holds c'.offset bytes

/-- The outcomes of two runs: the same value and cursors in front of the same bytes, or failures
that belong together. -/
inductive Alongside {α : Type} (shift : Int) (failures : Error → Error → Prop) :
    EStateM.Result Error Cursor α → EStateM.Result Error Cursor α → Prop
  | ok {a : α} {next next' : Cursor} (h : next.Alike shift next') :
    Alongside shift failures (.ok a next) (.ok a next')
  | error {e e' : Error} {next next' : Cursor} (h : failures e e') :
    Alongside shift failures (.error e next) (.error e' next')

section Outcomes

variable {α : Type} {shift : Int} {failures : Error → Error → Prop}
  {y : EStateM.Result Error Cursor α}

theorem Alongside.ok_left {a : α} {next : Cursor} (h : Alongside shift failures (.ok a next) y) :
    ∃ next', y = .ok a next' ∧ next.Alike shift next' := by
  cases h with
  | ok h => exact ⟨_, rfl, h⟩

theorem Alongside.error_left {e : Error} {next : Cursor}
    (h : Alongside shift failures (.error e next) y) :
    ∃ e' next', y = .error e' next' ∧ failures e e' := by
  cases h with
  | error h => exact ⟨_, _, rfl, h⟩

end Outcomes

/-- Two steps that do the same in front of the same bytes. -/
def Local {α : Type} (shift : Int) (failures : Error → Error → Prop) (x x' : Step α) : Prop :=
  ∀ c c', c.Alike shift c' → Alongside shift failures (x c) (x' c')

-- The same failure, before it is tied to a record.
def Unnamed (e e' : Error) : Prop :=
  e' = e ∧ ∀ fixup, e ≠ .unsupportedFixup fixup

section Steps

variable {α β : Type} {shift : Int} {failures : Error → Error → Prop}

theorem local_pure (a : α) : Local shift failures (pure a) (pure a) :=
  fun _ _ h => .ok h

theorem local_throw {e e' : Error} (h : failures e e') :
    Local (α := α) shift failures (throw e) (throw e') :=
  fun _ _ _ => .error h

theorem local_bind {x x' : Step α} {f f' : α → Step β} (hx : Local shift failures x x')
    (hf : ∀ a, Local shift failures (f a) (f' a)) :
    Local shift failures (x >>= f) (x' >>= f') := by
  intro c c' h
  have hstep := hx c c' h
  simp only [bind, EStateM.bind]
  cases hc : x c with
  | ok a next =>
    rw [hc] at hstep
    obtain ⟨next', hc', hnext⟩ := hstep.ok_left
    rw [hc']
    exact hf a next next' hnext
  | error e next =>
    rw [hc] at hstep
    obtain ⟨e', next', hc', hfail⟩ := hstep.error_left
    rw [hc']
    exact .error hfail

-- Fields that lie in front of the same bytes are the same.
theorem unpack_alike {c c' : Cursor} (layout : Layout) (h : c.Alike shift c')
    (hroom : (layout.size : Int) ≤ c.remaining) :
    ∃ values, c.source.unpack layout c.offset = .ok values ∧
      c'.source.unpack layout c'.offset = .ok values := by
  obtain ⟨bytes, hlen, hheld, hheld'⟩ := h.window
  have htake : (bytes.take layout.size).length = layout.size := by
    rw [List.length_take]
    omega
  rw [← List.take_append_drop layout.size bytes, Source.holds_append_iff] at hheld hheld'
  obtain ⟨values, hvalues⟩ := Layout.exists_decode? c.source.order _ htake
  obtain ⟨hfits, hbytes⟩ := Layout.decode?_eq_some_iff.mp hvalues
  rw [hbytes] at hheld hheld'
  exact ⟨values, Source.unpack_eq_ok_iff.mpr ⟨hfits, hheld.1⟩,
    Source.unpack_eq_ok_iff.mpr ⟨hfits, h.order.symm ▸ hheld'.1⟩⟩

theorem alike_advance {c c' : Cursor} (n : Nat) (h : c.Alike shift c')
    (hroom : (n : Int) ≤ c.remaining) : (c.advance n).Alike shift (c'.advance n) := by
  obtain ⟨bytes, hlen, hheld, hheld'⟩ := h.window
  have htake : (bytes.take n).length = n := by
    rw [List.length_take]
    omega
  have hoffset := h.offset
  rw [← List.take_append_drop n bytes, Source.holds_append_iff, htake] at hheld hheld'
  refine ⟨h.order, ?_, h.stop, bytes.drop n, ?_, hheld.2, hheld'.2⟩
  · simp only [Cursor.advance]
    omega
  · rw [Cursor.advance_remaining, List.length_drop]
    omega

theorem remaining_alike {c c' : Cursor} (h : c.Alike shift c') : c'.remaining = c.remaining := by
  have hoffset := h.offset
  have hstop := h.stop
  unfold Cursor.remaining
  omega

theorem local_take (layout : Layout) :
    Local shift Unnamed (Cursor.take layout) (Cursor.take layout) := by
  intro c c' h
  unfold Cursor.take
  rw [remaining_alike h]
  by_cases hroom : c.remaining < layout.size
  · rw [if_pos hroom, if_pos hroom]
    exact .error ⟨rfl, fun _ => by simp⟩
  · obtain ⟨values, hread, hread'⟩ := unpack_alike layout h (by omega)
    rw [if_neg hroom, if_neg hroom, hread, hread']
    exact .ok (alike_advance layout.size h (by omega))

theorem local_takeForm : Local shift Unnamed takeForm takeForm := by
  apply local_bind (local_take _)
  intro values
  split
  · exact local_pure _
  · exact local_throw ⟨rfl, by simp⟩

theorem local_takeSource (form : Form) :
    Local shift Unnamed (takeSource form) (takeSource form) := by
  apply local_bind (local_take _)
  intro values
  split
  · exact local_pure _
  · exact local_pure _
  · exact local_throw ⟨rfl, by simp⟩

theorem local_takeTarget (form : Form) :
    Local shift Unnamed (takeTarget form) (takeTarget form) := by
  apply local_bind (local_take _)
  intro values
  split
  · exact local_pure _
  · exact local_throw ⟨rfl, by simp⟩

theorem local_takeAdditive (form : Form) :
    Local shift Unnamed (takeAdditive form) (takeAdditive form) := by
  unfold takeAdditive
  split
  · apply local_bind (local_take _)
    intro values
    split
    · exact local_pure _
    · exact local_throw ⟨rfl, by simp⟩
  · exact local_pure _

theorem local_takeOffsets (form : Form) (first : Int) :
    Local shift Unnamed (takeOffsets form first) (takeOffsets form first) := by
  unfold takeOffsets
  split
  · apply local_bind (local_take _)
    intro values
    split
    · exact local_pure _
    · exact local_throw ⟨rfl, by simp⟩
  · exact local_pure _

/-- The size of a record is the same wherever it starts. -/
theorem local_takeFields (form : Form) (start : Int) :
    Local shift Unnamed (takeFields form start) (takeFields form (start + shift)) := by
  apply local_bind (local_takeSource form)
  intro first
  apply local_bind (local_takeTarget form)
  intro target
  apply local_bind (local_takeAdditive form)
  intro additive?
  apply local_bind (local_takeOffsets form first)
  intro offsets c c' h
  have hsize : c'.offset - (start + shift) = c.offset - start := by
    rw [h.offset]
    omega
  show Alongside _ _ (.ok (Record.mk form offsets target additive? (c.offset - start)) c)
    (.ok (Record.mk form offsets target additive? (c'.offset - (start + shift))) c')
  rw [hsize]
  exact .ok h

/-- A failure that belongs to the record `shift` bytes further on. -/
def Shifted (shift : Int) (e e' : Error) : Prop :=
  e' = e.shifted shift

-- Naming the record commutes with moving it.
theorem nameOverrun_shifted {e e' : Error} (start page : Int) (form? : Option Form)
    (h : Unnamed e e') :
    Shifted shift (nameOverrun start page form? e) (nameOverrun (start + shift) page form? e') := by
  obtain ⟨rfl, hunnamed⟩ := h
  cases e' with
  | unsupportedFixup fixup => exact (hunnamed fixup rfl).elim
  | _ => rfl

theorem local_adaptExcept {x x' : Step α} (start page : Int) (form? : Option Form)
    (h : Local shift Unnamed x x') :
    Local shift (Shifted shift) (x.adaptExcept (nameOverrun start page form?))
      (x'.adaptExcept (nameOverrun (start + shift) page form?)) := by
  intro c c' halike
  have hstep := h c c' halike
  simp only [EStateM.adaptExcept]
  cases hc : x c with
  | ok a next =>
    rw [hc] at hstep
    obtain ⟨next', hc', hnext⟩ := hstep.ok_left
    rw [hc']
    exact .ok hnext
  | error e next =>
    rw [hc] at hstep
    obtain ⟨e', next', hc', hfail⟩ := hstep.error_left
    rw [hc']
    exact .error (nameOverrun_shifted start page form? hfail)

-- What is wrong with the form of a record does not depend on where it stands.
theorem shifted_formFault {form : Form} {fault : FixupFault} (h : form.fault? = some fault) :
    fault.shifted shift = fault := by
  cases fault with
  | overrun start excess => exact absurd h (by unfold Form.fault?; grind)
  | _ => rfl

/-- A record is read alike wherever its page stands. -/
theorem local_decodeRecord (page : Int) :
    Local shift (Shifted shift) (decodeRecord page) (decodeRecord page) := by
  intro c c' h
  have hoffset := h.offset
  -- each run names the record by the place of its own cursor
  show Alongside _ _ ((takeForm.adaptExcept (nameOverrun c.offset page none) >>= _) c)
    ((takeForm.adaptExcept (nameOverrun c'.offset page none) >>= _) c')
  rw [hoffset]
  refine local_bind (local_adaptExcept _ _ _ local_takeForm) (fun form => ?_) c c' h
  cases hfault : form.fault? with
  | some fault =>
    refine local_throw ?_
    simp only [Shifted, Error.shifted, UnsupportedFixup.shifted, shifted_formFault hfault,
      Option.map_some]
  | none => exact local_adaptExcept _ _ _ (local_takeFields form _)

end Steps

/-! ## 3. Pages -/

/-- The outcome of a page whose records stand `shift` bytes further on. -/
def Decoded.shifted (shift : Int) (d : Decoded) : Decoded :=
  { d with failure? := d.failure?.map (Error.shifted shift) }

@[simp] theorem Decoded.shifted_zero (d : Decoded) : d.shifted 0 = d := by
  obtain ⟨records, failure?⟩ := d
  cases failure? <;> simp [shifted]

-- All records from a cursor on are the same as from one in front of the same bytes.
theorem recordsFrom_alike {shift : Int} (page : Int) {c c' : Cursor} (h : c.Alike shift c') :
    recordsFrom page c' = (recordsFrom page c).shifted shift := by
  -- the first run decides the cases; the second one follows it step by step
  fun_induction recordsFrom page c generalizing c' with
  | case1 c hend =>
    rw [recordsFrom_of_done (by rw [remaining_alike h]; exact hend)]
    rfl
  | case2 c hend record next hrecord rest =>
    rename_i ih
    have hstep := local_decodeRecord page c c' h
    rw [hrecord] at hstep
    obtain ⟨next', hrecord', hnext⟩ := hstep.ok_left
    rw [recordsFrom_of_ok (by rw [remaining_alike h]; exact Int.not_le.mp hend) hrecord', ih hnext]
    rfl
  | case3 c hend e next hrecord =>
    have hstep := local_decodeRecord page c c' h
    rw [hrecord] at hstep
    obtain ⟨e', next', hrecord', hfail⟩ := hstep.error_left
    rw [recordsFrom_of_error (by rw [remaining_alike h]; exact Int.not_le.mp hend) hrecord', hfail]
    rfl

/-- A page is decided by the bytes of its records and the order of their words; only the places
that its failure names move with them. -/
theorem decodeRange_moved {source source' : Source} {offset offset' : Int} {bytes : List UInt8}
    (page : Int) (horder : source'.order = source.order) (hheld : source.Holds offset bytes)
    (hheld' : source'.Holds offset' bytes) :
    decodeRange source' offset' bytes.length page =
      (decodeRange source offset bytes.length page).shifted (offset' - offset) := by
  have hroom : source.require offset bytes.length = .ok () :=
    Source.require_eq_ok_iff.mpr ⟨hheld.nonneg, by omega, hheld.end_le⟩
  have hroom' : source'.require offset' bytes.length = .ok () :=
    Source.require_eq_ok_iff.mpr ⟨hheld'.nonneg, by omega, hheld'.end_le⟩
  rw [decodeRange_eq page hroom, decodeRange_eq page hroom']
  refine recordsFrom_alike page ⟨horder, ?_, ?_, bytes, ?_, hheld, hheld'⟩
  · show offset' = offset + (offset' - offset)
    omega
  · show offset' + _ = offset + _ + (offset' - offset)
    omega
  · show (bytes.length : Int) = offset + bytes.length - offset
    omega

/-! ## 4. Windows -/

/-- Two outcomes of a page, once at `offset` and once at `offset'`: the same records, or refusals of
the record at the same distance from the start, which differ in nothing but its place. -/
inductive SameOutcome (page offset offset' length : Int) :
    Except Error (List Record) → Except Error (List Record) → Prop
  | ok (records : List Record) : SameOutcome page offset offset' length (.ok records) (.ok records)
  | error {fixup fixup' : UnsupportedFixup} {distance : Int} (source : fixup'.source? = fixup.source?)
    (flags : fixup'.flags? = fixup.flags?)
    (fault : fixup'.fault = fixup.fault.shifted (offset' - offset))
    (inside : 0 ≤ distance ∧ distance < length)
    (first : fixup.page? = some page ∧ fixup.offset? = some (offset + distance))
    (second : fixup'.page? = some page ∧ fixup'.offset? = some (offset' + distance)) :
    SameOutcome page offset offset' length (.error (.unsupportedFixup fixup))
      (.error (.unsupportedFixup fixup'))

/-- A page inside its source comes to the same outcome as its shifted copy. -/
theorem sameOutcome_shifted {source : Source} {offset offset' length : Int} (page : Int)
    (hroom : source.require offset length = .ok ()) :
    SameOutcome page offset offset' length (decodeRange source offset length page).strict
      ((decodeRange source offset length page).shifted (offset' - offset)).strict := by
  have hspec := (decodeRange_spec page hroom).2.2
  generalize hplace :
    (recordBytes source.order (decodeRange source offset length page).records).length = place
    at hspec
  cases hfailure : (decodeRange source offset length page).failure? with
  | none =>
    simp only [Decoded.strict, Decoded.shifted, hfailure, Option.map_none]
    exact .ok _
  | some e =>
    rw [hfailure] at hspec
    obtain ⟨hbefore, fixup, rfl, hpage, hoffset⟩ := hspec
    simp only [Decoded.strict, Decoded.shifted, hfailure, Option.map_some]
    have hmoved : offset + place + (offset' - offset) = offset' + place := by omega
    refine .error rfl rfl rfl ⟨Int.natCast_nonneg place, hbefore⟩ ⟨hpage, hoffset⟩ ⟨hpage, ?_⟩
    rw [UnsupportedFixup.shifted, hoffset, Option.map_some, hmoved]

/-- Behind a piece that is decoded, a page is read as if it started there. -/
theorem decodeRange_add {source : Source} {offset a b page : Int} {records : List Record}
    (hb : 0 ≤ b) (hroom : source.require offset (a + b) = .ok ())
    (h : (decodeRange source offset a page).strict = .ok records) :
    decodeRange source offset (a + b) page =
      (decodeRange source (offset + a) b page).behind records := by
  rw [decodeRange_eq_ok_iff] at h
  obtain ⟨hwell, hheld, hlength⟩ := h
  obtain ⟨hstart, -, hend⟩ := Source.require_eq_ok_iff.mp hroom
  have hrest : source.require (offset + a) b = .ok () :=
    Source.require_eq_ok_iff.mpr ⟨by omega, hb, by omega⟩
  have hahead : Cursor.Ahead ⟨source, offset, offset + (a + b)⟩
      (records.flatMap (Record.encode source.order)) := by
    refine ⟨hheld, ?_⟩
    simp only [Cursor.remaining]
    omega
  -- the cursor behind the first piece is the one at the start of the second
  have hcursor : Cursor.advance ⟨source, offset, offset + (a + b)⟩
      (records.flatMap (Record.encode source.order)).length =
        ⟨source, offset + a, offset + a + b⟩ := by
    rw [Cursor.advance, ← hlength, Int.add_assoc]
  rw [decodeRange_eq page hroom, decodeRange_eq page hrest, ← hcursor]
  exact recordsFrom_append page hwell hahead

/-- Pages as windows of a source. Two windows with the same bytes, words in the same order, come to
the same outcome wherever they are: the same records, or the same refusal at the same distance; no
other failure is possible inside the source. And where the front of a window is decoded, the whole
comes to the records of the front and then the outcome of the rest. -/
theorem decodeRange_windows (page : Int) :
    (∀ (source source' : Source) (offset offset' length : Int), source'.order = source.order →
      source.require offset length = .ok () → source'.require offset' length = .ok () →
      source'.read offset' length = source.read offset length →
        SameOutcome page offset offset' length (decodeRange source offset length page).strict
          (decodeRange source' offset' length page).strict) ∧
    ∀ (source : Source) (offset a b : Int) (records : List Record), 0 ≤ a → 0 ≤ b →
      source.require offset (a + b) = .ok () →
      (decodeRange source offset a page).strict = .ok records →
        (decodeRange source offset (a + b) page).strict =
          (decodeRange source (offset + a) b page).strict.map (records ++ ·) := by
  constructor
  · intro source source' offset offset' length horder hroom hroom' hsame
    obtain ⟨hnonneg, hlength, hend⟩ := Source.require_eq_ok_iff.mp hroom
    obtain ⟨bytes, hlen, hheld⟩ := Source.exists_holds length.toNat hnonneg
      (by omega : offset + length.toNat ≤ source.size)
    obtain rfl : length = bytes.length := by omega
    rw [Source.read_eq_ok_iff.mpr ⟨rfl, hheld⟩] at hsame
    have hheld' := (Source.read_eq_ok_iff.mp hsame).2
    rw [decodeRange_moved page horder hheld hheld']
    exact sameOutcome_shifted page hroom
  · intro source offset a b records _ hb hroom h
    rw [decodeRange_add hb hroom h, Decoded.strict_behind]

/-- The sample page without the byte in front of it. -/
def movedSource : Source where
  buffer := ⟨#[0x27, 0x14, 0x02, 0x01, 0x12, 0x34, 0x56, 0x78, 0x00, 0x07, 0xff, 0xfe, 0x00, 0x05,
    0x02, 0x40, 0x00, 0x03, 0x01, 0x02]⟩
  order := .big

/-- A window that cuts off the list of the first record, at two places; and the two records of the
page as two windows. -/
theorem decodeRange_windows_sample :
    SameOutcome 4 1 0 13 (decodeRange sampleSource 1 13 4).strict
        (decodeRange movedSource 0 13 4).strict ∧
      (decodeRange sampleSource 1 14 4).strict =
        .ok [⟨⟨0x27, 0x14⟩, [-2, 5], .internal 1 (some 0x12345678), some 7, 14⟩] ∧
      (decodeRange sampleSource 1 20 4).strict = (decodeRange sampleSource 15 6 4).strict.map
        ([⟨⟨0x27, 0x14⟩, [-2, 5], .internal 1 (some 0x12345678), some 7, 14⟩] ++ ·) := by
  have hfront : (decodeRange sampleSource 1 14 4).strict =
      .ok [⟨⟨0x27, 0x14⟩, [-2, 5], .internal 1 (some 0x12345678), some 7, 14⟩] := by decide +kernel
  obtain ⟨hmoved, hadd⟩ := decodeRange_windows 4
  exact ⟨hmoved sampleSource movedSource 1 0 13 rfl (by decide) (by decide) (by decide), hfront,
    hadd sampleSource 1 14 6 _ (by decide) (by decide) (by decide) hfront⟩

end Fixup

end LinearExecutable
