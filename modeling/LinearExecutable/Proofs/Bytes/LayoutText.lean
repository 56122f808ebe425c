import LinearExecutable.Bytes.LayoutText
import LinearExecutable.Proofs.Bytes.Refusal

/-!
# Records whose format is written as text

A format is a row of codes with their counts, behind a mark if there is one. A record with such a
format is refused only where the source has no room for it; what is read there packs into the same
bytes, up to gaps, which are packed as zeros. Only one mark leaves gaps. Two records side by side
are read as one, and a table is its records one behind the other.
-/

namespace LinearExecutable

/-! ## 1. Rows of codes -/

namespace Layout

/-- A row of codes as it is written. A code stands for one field, or for as many as the digits in
front of it say. -/
inductive Row : List Char → Layout → Prop
  | nil : Row [] []
  | single {code : Char} {codes : List Char} {field : Field} {layout : Layout}
      (hcode : Field.ofCode? 1 code = some field) (hrest : Row codes layout) :
      Row (code :: codes) (field :: layout)
  | counted {digits codes : List Char} {code : Char} {field : Field} {layout : Layout}
      (hne : digits ≠ []) (hdigits : ∀ d ∈ digits, d.isDigit)
      (hcode : Field.ofCode? (Nat.ofDigitChars 10 digits 0) code = some field)
      (hrest : Row codes layout) :
      Row (digits ++ code :: codes) (field :: layout)

/-- A text that names a layout: a row of codes that is not empty, or a mark and a row of codes. -/
inductive Written (text : String) : Option Format.Mark → Layout → Prop
  | bare {layout : Layout} (hne : text.toList ≠ []) (hrow : Row text.toList layout) :
      Written text none layout
  | marked {c : Char} {mark : Format.Mark} {codes : List Char} {layout : Layout}
      (htext : text.toList = c :: codes) (hmark : Format.Mark.ofChar? c = some mark)
      (hrow : Row codes layout) : Written text (some mark) layout

-- A code is neither a digit nor a mark.
theorem of_ofCode? {count : Nat} {code : Char} {field : Field}
    (h : Field.ofCode? count code = some field) :
    Text.asciiDigit? code = none ∧ Format.Mark.ofChar? code = none := by
  unfold Field.ofCode? at h
  split at h
  case h_10 => contradiction
  all_goals exact ⟨rfl, rfl⟩

theorem ofChar?_of_isDigit {c : Char} (h : c.isDigit) : Format.Mark.ofChar? c = none := by
  unfold Format.Mark.ofChar?
  split
  case h_6 => rfl
  all_goals exact absurd h (by decide)

-- Digits add up to the count of the code behind them.
theorem ofCodes?_digits {digits : List Char} (hdigits : ∀ d ∈ digits, d.isDigit) (hne : digits ≠ [])
    (count? : Option Nat) (rest : List Char) :
    ofCodes? count? (digits ++ rest) =
      ofCodes? (some (Nat.ofDigitChars 10 digits (count?.getD 0))) rest := by
  induction digits generalizing count? with
  | nil => exact absurd rfl hne
  | cons d digits ih =>
    obtain ⟨hd, hdigits⟩ := List.forall_mem_cons.mp hdigits
    have hdigit : Text.asciiDigit? d = some (d.toNat - 48) := if_pos hd
    rw [List.cons_append, ofCodes?, hdigit, Nat.ofDigitChars_cons, Nat.mul_comm 10]
    dsimp only
    cases digits with
    | nil => rfl
    | cons d' digits =>
      rw [ih hdigits (List.cons_ne_nil d' digits), Option.getD_some]
      rfl

theorem ofCodes?_of_row {codes : List Char} {layout : Layout} (h : Row codes layout) :
    ofCodes? none codes = some layout := by
  induction h with
  | nil => rfl
  | single hcode _ ih =>
    rw [ofCodes?, (of_ofCode? hcode).1]
    dsimp only
    rw [Option.getD_none, hcode, ih]
    rfl
  | counted hne hdigits hcode _ ih =>
    rw [ofCodes?_digits hdigits hne, ofCodes?, (of_ofCode? hcode).1]
    dsimp only
    rw [Option.getD_some, Option.getD_none, hcode, ih]
    rfl

-- A row starts with a code or a digit, so it does not start with a mark.
theorem ofChar?_of_row {c : Char} {codes : List Char} {layout : Layout}
    (h : Row (c :: codes) layout) : Format.Mark.ofChar? c = none := by
  generalize hall : c :: codes = all at h
  cases h with
  | nil => contradiction
  | single hcode _ =>
    cases hall
    exact (of_ofCode? hcode).2
  | counted hne hdigits _ _ =>
    obtain ⟨d, digits, rfl⟩ := List.exists_cons_of_ne_nil hne
    obtain ⟨rfl, -⟩ := List.cons.inj hall
    exact ofChar?_of_isDigit (hdigits c List.mem_cons_self)

/-- A text that names a layout is read as its format, unless a record would be too large. -/
theorem ofText_of_written {text : String} {mark? : Option Format.Mark} {layout : Layout}
    (h : Written text mark? layout) :
    Format.ofText text =
      if Format.maxSize < (Format.ofLayout mark? layout).size then .error .oversizedLayout
      else .ok (Format.ofLayout mark? layout) := by
  unfold Format.ofText
  cases h with
  | bare hne hrow =>
    obtain ⟨c, codes, htext⟩ := List.exists_cons_of_ne_nil hne
    rw [htext] at hrow ⊢
    dsimp only
    rw [ofChar?_of_row hrow, if_neg (by decide), ofCodes?_of_row hrow]
  | marked htext hmark hrow =>
    rw [htext]
    dsimp only
    rw [hmark, if_pos (by rfl), ofCodes?_of_row hrow]

theorem Row.append {first second : List Char} {layout layout' : Layout} (h : Row first layout)
    (h' : Row second layout') : Row (first ++ second) (layout ++ layout') := by
  induction h with
  | nil => exact h'
  | single hcode _ ih => exact .single hcode ih
  | counted hne hdigits hcode _ ih =>
    rw [List.append_assoc, List.cons_append]
    exact .counted hne hdigits hcode ih

-- Texts without a mark name one layout behind the other.
theorem Written.append {first second : String} {layout layout' : Layout}
    (h : Written first none layout) (h' : Written second none layout') :
    Written (first ++ second) none (layout ++ layout') := by
  cases h with
  | bare hne hrow =>
    cases h' with
    | bare _ hrow' =>
      refine .bare ?_ ?_
      · rw [String.toList_append]
        exact List.append_ne_nil_of_left_ne_nil hne _
      · rw [String.toList_append]
        exact hrow.append hrow'

/-! ## 2. Records side by side -/

theorem size_append (first second : Layout) :
    size (first ++ second) = first.size + second.size := by
  induction first with
  | nil => exact (Nat.zero_add second.size).symm
  | cons field first ih => rw [List.cons_append, size, ih, size, Nat.add_assoc]

theorem fits_append_iff {first second : Layout} {values : List Value} :
    Fits (first ++ second) values ↔
      ∃ v w, values = v ++ w ∧ first.Fits v ∧ second.Fits w := by
  induction first generalizing values with
  | nil =>
    constructor
    · intro h
      exact ⟨[], values, rfl, rfl, h⟩
    · rintro ⟨_, w, rfl, rfl, hw⟩
      exact hw
  | cons field first ih =>
    simp only [List.cons_append, fits_cons_iff, ih]
    constructor
    · rintro ⟨u, _, rfl, hu, v, w, rfl, hv, hw⟩
      exact ⟨u ++ v, w, (List.append_assoc _ _ _).symm, ⟨u, v, rfl, hu, hv⟩, hw⟩
    · rintro ⟨_, w, rfl, ⟨u, v, rfl, hu, hv⟩, hw⟩
      exact ⟨u, v ++ w, List.append_assoc _ _ _, hu, v, w, rfl, hv, hw⟩

theorem encode_append {order : ByteOrder} {first : Layout} {v : List Value} (h : first.Fits v)
    (second : Layout) (w : List Value) :
    encode order (first ++ second) (v ++ w) = encode order first v ++ encode order second w := by
  induction first generalizing v with
  | nil =>
    obtain rfl : v = [] := h
    rfl
  | cons field first ih =>
    obtain ⟨u, v, rfl, hu, hv⟩ := fits_cons_iff.mp h
    rw [List.cons_append, List.append_assoc, encode_cons _ _ hu.1, encode_cons _ _ hu.1, ih hv,
      List.append_assoc]

end Layout

namespace Source

variable {source : Source} {layout : Layout} {offset : Int}

/-- Two records side by side are read as one record with the fields of both. -/
theorem unpack_append_eq_ok_iff {first second : Layout} {values : List Value} :
    source.unpack (first ++ second) offset = .ok values ↔
      ∃ v w, source.unpack first offset = .ok v ∧
        source.unpack second (offset + first.size) = .ok w ∧ values = v ++ w := by
  simp only [unpack_eq_ok_iff, Layout.fits_append_iff]
  constructor
  · rintro ⟨⟨v, w, rfl, hv, hw⟩, hheld⟩
    rw [Layout.encode_append hv, holds_append_iff, Layout.length_encode hv] at hheld
    exact ⟨v, w, ⟨hv, hheld.1⟩, ⟨hw, hheld.2⟩, rfl⟩
  · rintro ⟨v, w, ⟨hv, hheld⟩, ⟨hw, hheld'⟩, rfl⟩
    refine ⟨⟨v, w, rfl, hv, hw⟩, ?_⟩
    rw [Layout.encode_append hv, holds_append_iff, Layout.length_encode hv]
    exact ⟨hheld, hheld'⟩

/-! ## 3. Where records can be read -/

/-- A record is refused only where the source has no room for it. -/
theorem unpack_eq_truncated_iff :
    (∃ cause, source.unpack layout offset = .error (.truncated cause)) ↔
      offset < 0 ∨ source.size < offset + layout.size := by
  constructor
  · rintro ⟨cause, h⟩
    exact (unpack_eq_error h).1
  · intro hroom
    refine ⟨.window layout.size offset source.size, ?_⟩
    rw [unpack, read_eq_error (by omega)]
    rfl

/-- What is read where there is room packs into the bytes that stand there. -/
theorem exists_unpack_read (source : Source) (layout : Layout) (hnonneg : 0 ≤ offset)
    (hroom : offset + layout.size ≤ source.size) :
    ∃ values, source.unpack layout offset = .ok values ∧ layout.Fits values ∧
      source.read offset layout.size = .ok (layout.encode source.order values) := by
  obtain ⟨values, hvalues⟩ := source.exists_unpack layout hnonneg hroom
  obtain ⟨hfits, hheld⟩ := unpack_eq_ok_iff.mp hvalues
  exact ⟨values, hvalues, hfits, read_eq_ok_iff.mpr ⟨by rw [Layout.length_encode hfits], hheld⟩⟩

/-- A table is refused only where the source has no room for it. -/
theorem unpackMany_eq_truncated_iff (hpos : 0 < layout.size) {count : Nat} :
    (∃ cause, source.unpackMany layout offset count = .error (.truncated cause)) ↔
      offset < 0 ∨ source.size < offset + count * layout.size := by
  have hcomm : (layout.size * count : Int) = count * layout.size := Int.mul_comm _ _
  have hsize : (0 : Int) ≤ count * layout.size := by positivity
  constructor
  · rintro ⟨cause, h⟩
    by_contra hroom
    obtain ⟨bytes, hlen, hheld⟩ := source.exists_holds (count * layout.size)
      (by omega : 0 ≤ offset) (by push_cast; omega)
    have hread : source.read offset (layout.size * count) = .ok bytes :=
      read_eq_ok_iff.mpr ⟨by rw [hlen, hcomm]; push_cast; rfl, hheld⟩
    obtain ⟨records, hrecords⟩ := source.exists_unpackMany hpos hread
    rw [hrecords] at h
    contradiction
  · intro hroom
    refine ⟨.window (layout.size * count) offset source.size, ?_⟩
    rw [unpackMany, read_eq_error (by omega)]
    rfl

-- The records of a table stand at multiples of their size.
theorem unpack_of_unpackMany (hpos : 0 < layout.size) {count : Nat} {records : List (List Value)}
    (h : source.unpackMany layout offset count = .ok records) {i : Nat} {values : List Value}
    (hi : records[i]? = some values) :
    source.unpack layout (offset + i * layout.size) = .ok values := by
  obtain ⟨-, hfits, hheld⟩ := (unpackMany_eq_ok_iff hpos).mp h
  clear h
  -- the records move on one by one, and the offset with them
  induction records generalizing offset i with
  | nil => contradiction
  | cons r records ih =>
    obtain ⟨hr, hfits⟩ := List.forall_mem_cons.mp hfits
    rw [List.flatMap_cons, holds_append_iff, Layout.length_encode hr] at hheld
    cases i with
    | zero =>
      cases hi
      rw [Nat.cast_zero, Int.zero_mul, Int.add_zero]
      exact unpack_eq_ok_iff.mpr ⟨hr, hheld.1⟩
    | succ i =>
      have hplace : offset + (i + 1 : Nat) * layout.size =
          offset + layout.size + i * layout.size := by
        push_cast
        ring
      rw [hplace]
      exact ih hi hfits hheld.2

theorem exists_unpackMany_items (source : Source) (layout : Layout) (hpos : 0 < layout.size)
    {count : Nat} (hnonneg : 0 ≤ offset) (hroom : offset + count * layout.size ≤ source.size) :
    ∃ records, source.unpackMany layout offset count = .ok records ∧ records.length = count ∧
      ∀ (i : Nat) (values : List Value), records[i]? = some values →
        source.unpack layout (offset + i * layout.size) = .ok values := by
  cases hrecords : source.unpackMany layout offset count with
  | ok records =>
    exact ⟨records, rfl, ((unpackMany_eq_ok_iff hpos).mp hrecords).1, fun i values hi =>
      unpack_of_unpackMany hpos hrecords hi⟩
  | error e =>
    obtain ⟨cause, rfl⟩ := source.failsOnly_unpackMany hpos offset count e hrecords
    have hnone := (unpackMany_eq_truncated_iff hpos).mp ⟨cause, hrecords⟩
    omega

end Source


/-! ## 4. Gaps -/

namespace Slot

/-- The fields among slots. -/
def fields : List Slot → Layout
  | [] => []
  | .gap _ :: rest => fields rest
  | .run field :: rest => field :: fields rest

/-- The values of all slots, given those of the fields: a gap is filled with zeros. -/
def filled : List Slot → List Value → List Value
  | [], _ => []
  | .gap size :: rest, values => .bytes (List.replicate size 0) :: filled rest values
  | .run field :: rest, values =>
    values.take field.count ++ filled rest (values.drop field.count)

/-- The bytes of a record with zeros in its gaps. -/
def clear : List Slot → List UInt8 → List UInt8
  | [], bytes => bytes
  | .gap size :: rest, bytes => List.replicate size 0 ++ clear rest (bytes.drop size)
  | .run field :: rest, bytes => bytes.take field.size ++ clear rest (bytes.drop field.size)

/-- What is shown of a record fits its fields, and packs into its bytes up to gaps. -/
theorem pack_shown (order : ByteOrder) {slots : List Slot} {values : List Value}
    (h : Layout.Fits (slots.map toField) values) :
    (fields slots).Fits (shown slots values) ∧
      Layout.encode order (slots.map toField) (filled slots (shown slots values)) =
        clear slots (Layout.encode order (slots.map toField) values) := by
  induction slots generalizing values with
  | nil =>
    obtain rfl : values = [] := h
    exact ⟨rfl, rfl⟩
  | cons slot rest ih =>
    obtain ⟨first, others, rfl, hfirst, hothers⟩ := Layout.fits_cons_iff.mp h
    obtain ⟨hfits, hpack⟩ := ih hothers
    rw [List.map_cons, Layout.encode_cons _ _ hfirst.1]
    cases slot with
    | gap size =>
      have hone : first.length = 1 := hfirst.1
      have hsize : ((Field.text size).encode order first).length = size :=
        Field.length_encode order hfirst
      have hgap : (Field.text size).Fits [.bytes (List.replicate size 0)] :=
        ⟨rfl, List.forall_mem_singleton.mpr List.length_replicate⟩
      have hencode : (Field.text size).encode order [.bytes (List.replicate size 0)] =
          List.replicate size 0 := List.append_nil _
      have hpad : Layout.encode order (.text size :: rest.map toField)
          ([.bytes (List.replicate size 0)] ++ filled rest (shown rest others)) = _ :=
        Layout.encode_cons _ _ hgap.1
      rw [hencode, hpack, List.singleton_append] at hpad
      rw [shown, fields, List.drop_left' hone, filled, toField, hpad, clear,
        List.drop_left' hsize]
      exact ⟨hfits, rfl⟩
    | run field =>
      have hcount : first.length = field.count := hfirst.1
      have hsize : (field.encode order first).length = field.size :=
        Field.length_encode order hfirst
      rw [shown, fields, List.take_left' hcount, List.drop_left' hcount, filled,
        List.take_left' hcount, List.drop_left' hcount, toField, Layout.encode_cons _ _ hcount,
        hpack, clear, List.take_left' hsize, List.drop_left' hsize]
      exact ⟨Layout.fits_cons_iff.mpr ⟨_, _, rfl, hfirst, hfits⟩, rfl⟩

theorem fields_aligned (position : Nat) (layout : Layout) :
    fields (aligned position layout) = layout := by
  induction layout generalizing position with
  | nil => rfl
  | cons field layout ih => rw [aligned, fields, fields, ih]

-- Fields without gaps are a layout.
theorem map_toField_run (layout : Layout) : (layout.map run).map toField = layout := by
  rw [List.map_map]
  exact List.map_id layout

theorem fields_run (layout : Layout) : fields (layout.map run) = layout := by
  induction layout with
  | nil => rfl
  | cons field layout ih => rw [List.map_cons, fields, ih]

theorem clear_run (layout : Layout) (bytes : List UInt8) :
    clear (layout.map run) bytes = bytes := by
  induction layout generalizing bytes with
  | nil => rfl
  | cons field layout ih => rw [List.map_cons, clear, ih, List.take_append_drop]

theorem filled_run {layout : Layout} {values : List Value} (h : layout.Fits values) :
    filled (layout.map run) values = values := by
  induction layout generalizing values with
  | nil => exact h.symm
  | cons field layout ih => rw [List.map_cons, filled, ih h.2, List.take_append_drop]

theorem shown_run {layout : Layout} {values : List Value} (h : layout.Fits values) :
    shown (layout.map run) values = values := by
  induction layout generalizing values with
  | nil => exact h.symm
  | cons field layout ih => rw [List.map_cons, shown, ih h.2, List.take_append_drop]

end Slot

/-! ## 5. Formats -/

namespace Format

/-- The bytes of a record with the given values, one value for each field. -/
def pack (format : Format) (order : ByteOrder) (values : List Value) : List UInt8 :=
  format.layout.encode order (Slot.filled format.slots values)

theorem fields_ofLayout (mark? : Option Mark) (layout : Layout) :
    Slot.fields (ofLayout mark? layout).slots = layout := by
  rw [ofLayout]
  dsimp only
  split
  · exact Slot.fields_aligned 0 layout
  · exact Slot.fields_run layout

theorem slots_ofLayout {mark? : Option Mark} (h : mark?.any Mark.isAligned = false)
    (layout : Layout) : (ofLayout mark? layout).slots = layout.map .run :=
  if_neg (by rw [h]; exact Bool.false_ne_true)

-- Without gaps packing is encoding.
theorem pack_ofLayout {mark? : Option Mark} (h : mark?.any Mark.isAligned = false)
    (order : ByteOrder) {layout : Layout} {values : List Value} (hfits : layout.Fits values) :
    (ofLayout mark? layout).pack order values = layout.encode order values := by
  rw [pack, Format.layout, slots_ofLayout h, Slot.map_toField_run, Slot.filled_run hfits]

theorem size_ofLayout_none (layout : Layout) : (ofLayout none layout).size = layout.size :=
  congrArg Layout.size (Slot.map_toField_run layout)

end Format

-- What is done to values leaves failures as they are.
theorem Except.map_eq_error_iff {ε α β : Type} {x : Except ε α} {f : α → β} {e : ε} :
    x.map f = .error e ↔ x = .error e := by
  cases x <;> simp [Except.map]

namespace Source

variable (file : Source) {text : String} {mark? : Option Format.Mark} {layout : Layout}

theorem unpackText_of_written (h : Layout.Written text mark? layout)
    (hsize : (Format.ofLayout mark? layout).size ≤ Format.maxSize) (offset : Int) :
    file.unpackText text offset =
      ((file.under (.ofLayout mark? layout)).unpack (Format.ofLayout mark? layout).layout
        offset).map (Slot.shown (Format.ofLayout mark? layout).slots) := by
  rw [unpackText, Layout.ofText_of_written h, if_neg (Nat.not_lt.mpr hsize), Except.bind_ok]
  cases (file.under (.ofLayout mark? layout)).unpack _ offset <;> rfl

theorem unpackManyText_of_written (h : Layout.Written text mark? layout)
    (hsize : (Format.ofLayout mark? layout).size ≤ Format.maxSize) (offset count : Int) :
    file.unpackManyText text offset count =
      ((file.under (.ofLayout mark? layout)).unpackMany (Format.ofLayout mark? layout).layout
        offset count).map (List.map (Slot.shown (Format.ofLayout mark? layout).slots)) := by
  rw [unpackManyText, Layout.ofText_of_written h, if_neg (Nat.not_lt.mpr hsize), Except.bind_ok]
  cases (file.under (.ofLayout mark? layout)).unpackMany _ offset count <;> rfl

/-- A format is refused where a record would be too large, whatever the source. -/
theorem unpackText_of_oversized (h : Layout.Written text mark? layout)
    (hsize : Format.maxSize < (Format.ofLayout mark? layout).size) (offset count : Int) :
    file.unpackText text offset = .error .oversizedLayout ∧
      file.unpackManyText text offset count = .error .oversizedLayout := by
  rw [unpackText, unpackManyText, Layout.ofText_of_written h, if_pos hsize]
  exact ⟨rfl, rfl⟩

/-- What is read where there is room packs into the bytes that stand there, up to gaps. -/
theorem exists_unpackText (h : Layout.Written text mark? layout)
    (hsize : (Format.ofLayout mark? layout).size ≤ Format.maxSize) {offset : Int}
    (hnonneg : 0 ≤ offset) (hroom : offset + (Format.ofLayout mark? layout).size ≤ file.size) :
    ∃ values bytes, file.unpackText text offset = .ok values ∧ layout.Fits values ∧
      file.read offset (Format.ofLayout mark? layout).size = .ok bytes ∧
      (Format.ofLayout mark? layout).pack
          ((Format.ofLayout mark? layout).order?.getD file.order) values =
        Slot.clear (Format.ofLayout mark? layout).slots bytes := by
  have hunpack := unpackText_of_written file h hsize offset
  have hfields := Format.fields_ofLayout mark? layout
  generalize Format.ofLayout mark? layout = format at hsize hroom hunpack hfields ⊢
  obtain ⟨values, hvalues, hfits, hread⟩ :=
    exists_unpack_read (file.under format) format.layout hnonneg hroom
  obtain ⟨hshown, hpack⟩ := Slot.pack_shown (format.order?.getD file.order) hfits
  rw [hvalues] at hunpack
  exact ⟨_, _, hunpack, hfields ▸ hshown, hread, hpack⟩

/-- The records of a table are what is read at the multiples of their size. -/
theorem exists_unpackManyText (h : Layout.Written text mark? layout)
    (hsize : (Format.ofLayout mark? layout).size ≤ Format.maxSize)
    (hpos : 0 < (Format.ofLayout mark? layout).size) {offset : Int} {count : Nat}
    (hnonneg : 0 ≤ offset)
    (hroom : offset + count * (Format.ofLayout mark? layout).size ≤ file.size) :
    ∃ records, file.unpackManyText text offset count = .ok records ∧ records.length = count ∧
      ∀ (i : Nat) (values : List Value), records[i]? = some values →
        file.unpackText text (offset + i * (Format.ofLayout mark? layout).size) = .ok values := by
  have hunpack := unpackText_of_written file h hsize
  have hmany := unpackManyText_of_written file h hsize offset count
  generalize Format.ofLayout mark? layout = format at hpos hroom hunpack hmany ⊢
  obtain ⟨records, hrecords, hlength, hitems⟩ :=
    exists_unpackMany_items (file.under format) format.layout hpos hnonneg hroom
  rw [hrecords] at hmany
  refine ⟨_, hmany, by rw [List.length_map, hlength], fun i values hi => ?_⟩
  rw [List.getElem?_map, Option.map_eq_some_iff] at hi
  obtain ⟨all, hall, rfl⟩ := hi
  rw [hunpack, Format.size, hitems i all hall]
  rfl

/-- A format without a mark reads its layout. -/
theorem unpackText_bare (h : Layout.Written text none layout) (hsize : layout.size ≤ Format.maxSize)
    (offset : Int) : file.unpackText text offset = file.unpack layout offset := by
  have hlayout : (Format.ofLayout none layout).layout = layout := Slot.map_toField_run layout
  rw [unpackText_of_written file h (by rwa [Format.size_ofLayout_none]), hlayout]
  show (file.unpack layout offset).map (Slot.shown (layout.map .run)) = file.unpack layout offset
  cases hread : file.unpack layout offset with
  | error e => rfl
  | ok values => rw [Except.map, Slot.shown_run (unpack_eq_ok_iff.mp hread).1]

-- What is read without a mark has room in the file.
theorem room_of_unpackText_bare (h : Layout.Written text none layout) {offset : Int}
    {values : List Value} (hread : file.unpackText text offset = .ok values) :
    0 ≤ offset ∧ offset + layout.size ≤ file.size := by
  by_cases hsize : layout.size ≤ Format.maxSize
  · rw [unpackText_bare file h hsize] at hread
    obtain ⟨hfits, hheld⟩ := unpack_eq_ok_iff.mp hread
    have hend := hheld.end_le
    rw [Layout.length_encode hfits] at hend
    exact ⟨hheld.nonneg, hend⟩
  · have hrefused := unpackText_of_oversized file h
      (by rw [Format.size_ofLayout_none]; omega) offset 0
    rw [hrefused.1] at hread
    contradiction

/-- Two formats without a mark, one text behind the other, read what they read one behind the
other. -/
theorem unpackText_append_eq_ok_iff (hfile : file.size ≤ Format.maxSize) {first second : String}
    {layout layout' : Layout} (hfirst : Layout.Written first none layout)
    (hsecond : Layout.Written second none layout') (offset : Int) (values : List Value) :
    file.unpackText (first ++ second) offset = .ok values ↔
      ∃ v w, file.unpackText first offset = .ok v ∧
        file.unpackText second (offset + layout.size) = .ok w ∧ values = v ++ w := by
  have hsum := Layout.size_append layout layout'
  by_cases hsize : layout.size + layout'.size ≤ Format.maxSize
  · rw [unpackText_bare file (hfirst.append hsecond) (by omega),
      unpackText_bare file hfirst (by omega)]
    simp only [unpackText_bare file hsecond (show layout'.size ≤ Format.maxSize by omega)]
    exact unpack_append_eq_ok_iff
  · have hrefused := unpackText_of_oversized file (hfirst.append hsecond)
      (by rw [Format.size_ofLayout_none]; omega) offset 0
    rw [hrefused.1]
    refine ⟨nofun, ?_⟩
    rintro ⟨v, w, hv, hw, -⟩
    obtain ⟨hstart, -⟩ := room_of_unpackText_bare file hfirst hv
    obtain ⟨-, hend⟩ := room_of_unpackText_bare file hsecond hw
    omega

end Source

/-! ## 6. Reading by formats -/

/-- Reading by formats that are written as text. A text that is not empty names a layout, with a
mark or without one, and so the size of its records. A format whose records would be too large is
refused. By any other format a record, or a table of records that have bytes, is refused as
truncated iff the file has no room for it. Else the values fit the fields, and packing them gives
the bytes that stand there, with zeros in the gaps that the mark for aligned words leaves; under any
other mark, or without one, the values encode to exactly the bytes. Every record of a table is what
is read at its place. Two formats without a mark, one text behind the other, read what they read one
behind the other; no file has more bytes than a record can have. -/
theorem Source.unpackText_outcome (file : Source) :
    (∀ offset : Int, file.unpackText "" offset = .error .blankLayout) ∧
    (∀ (text : String) (mark? : Option Format.Mark) (layout : Layout),
      Layout.Written text mark? layout →
        let format := Format.ofLayout mark? layout
        (Format.maxSize < format.size → ∀ offset count : Int,
          file.unpackText text offset = .error .oversizedLayout ∧
            file.unpackManyText text offset count = .error .oversizedLayout) ∧
        (format.size ≤ Format.maxSize → ∀ offset : Int,
          ((∃ cause, file.unpackText text offset = .error (.truncated cause)) ↔
            offset < 0 ∨ file.size < offset + format.size) ∧
          (0 ≤ offset → offset + format.size ≤ file.size →
            ∃ values bytes, file.unpackText text offset = .ok values ∧ layout.Fits values ∧
              file.read offset format.size = .ok bytes ∧
              format.pack (format.order?.getD file.order) values =
                Slot.clear format.slots bytes ∧
              (mark?.any Format.Mark.isAligned = false →
                layout.encode (format.order?.getD file.order) values = bytes)) ∧
          (0 < format.size → ∀ count : Nat,
            ((∃ cause, file.unpackManyText text offset count = .error (.truncated cause)) ↔
              offset < 0 ∨ file.size < offset + count * format.size) ∧
            (0 ≤ offset → offset + count * format.size ≤ file.size →
              ∃ records, file.unpackManyText text offset count = .ok records ∧
                records.length = count ∧
                ∀ (i : Nat) (values : List Value), records[i]? = some values →
                  file.unpackText text (offset + i * format.size) = .ok values)))) ∧
    (file.size ≤ Format.maxSize →
      ∀ (first second : String) (layout layout' : Layout),
        Layout.Written first none layout → Layout.Written second none layout' →
          ∀ (offset : Int) (values : List Value),
            file.unpackText (first ++ second) offset = .ok values ↔
              ∃ v w, file.unpackText first offset = .ok v ∧
                file.unpackText second (offset + layout.size) = .ok w ∧ values = v ++ w) := by
  refine ⟨fun _ => rfl, fun text mark? layout hwritten =>
      ⟨unpackText_of_oversized file hwritten, fun hsize offset => ⟨?_, fun hnonneg hroom => ?_,
        fun hpos count => ⟨?_, exists_unpackManyText file hwritten hsize hpos⟩⟩⟩,
    fun hfile first second layout layout' => unpackText_append_eq_ok_iff file hfile⟩
  · simp only [unpackText_of_written file hwritten hsize, Except.map_eq_error_iff]
    exact unpack_eq_truncated_iff
  · obtain ⟨values, bytes, hvalues, hfits, hread, hpack⟩ :=
      exists_unpackText file hwritten hsize hnonneg hroom
    refine ⟨values, bytes, hvalues, hfits, hread, hpack, fun hpacked => ?_⟩
    rwa [Format.pack_ofLayout hpacked _ hfits, Format.slots_ofLayout hpacked,
      Slot.clear_run] at hpack
  · simp only [unpackManyText_of_written file hwritten hsize, Except.map_eq_error_iff]
    exact unpackMany_eq_truncated_iff hpos

-- One byte more than a record can have.
theorem Layout.written_oversized :
    Layout.Written "9223372036854775808B" none [.unsigned 0x8000000000000000 1] := by
  have hrow : Layout.Row ("9223372036854775808".toList ++ ['B'])
      [.unsigned 0x8000000000000000 1] :=
    .counted (by decide) (by simp) rfl .nil
  exact .bare (by decide) hrow

/-- A mark against the order of the file, a table of words that takes up all of it, aligned words
behind a gap that is not zero, a record that would be too large, and a signed word with a string
behind it. -/
theorem Source.unpackText_outcome_sample :
    let file : Source := ⟨⟨#[0xfe, 0xff, 7, 8, 9, 10]⟩, .big⟩
    Layout.Written "<h2B" (some ⟨.little, false⟩) [.signed 1 2, .unsigned 2 1] ∧
      (∃ values bytes, file.unpackText "<h2B" 0 = .ok values ∧ file.read 0 4 = .ok bytes ∧
        Layout.encode .little [.signed 1 2, .unsigned 2 1] values = bytes) ∧
      Layout.Written "@bH" (some ⟨.little, true⟩) [.signed 1 1, .unsigned 1 2] ∧
      (∃ values, file.unpackText "@bH" 1 = .ok values ∧
        (Format.ofLayout (some ⟨.little, true⟩) [.signed 1 1, .unsigned 1 2]).pack .little values =
          [0xff, 0, 8, 9]) ∧
      Layout.Written "H" none [.unsigned 1 2] ∧
      (∃ records, file.unpackManyText "H" 0 (3 : Nat) = .ok records ∧ records.length = 3) ∧
      file.unpackText "9223372036854775808B" 0 = .error .oversizedLayout ∧
      Layout.Written "h" none [.signed 1 2] ∧ Layout.Written "3s" none [.text 3] ∧
      file.size ≤ Format.maxSize ∧
      file.unpackText ("h" ++ "3s") 1 = .ok [.signed (-249), .bytes [8, 9, 10]] := by
  intro file
  have htwo : Layout.Row (['2'] ++ ['B']) [.unsigned 2 1] :=
    .counted (List.cons_ne_nil _ _) (List.forall_mem_singleton.mpr rfl) rfl .nil
  have hthree : Layout.Row (['3'] ++ ['s']) [.text 3] :=
    .counted (List.cons_ne_nil _ _) (List.forall_mem_singleton.mpr rfl) rfl .nil
  have hmarked : Layout.Written "<h2B" (some ⟨.little, false⟩) [.signed 1 2, .unsigned 2 1] :=
    .marked rfl rfl (.single rfl htwo)
  have haligned : Layout.Written "@bH" (some ⟨.little, true⟩) [.signed 1 1, .unsigned 1 2] :=
    .marked rfl rfl (.single rfl (.single rfl .nil))
  have hword : Layout.Written "H" none [.unsigned 1 2] := .bare (by decide) (.single rfl .nil)
  have hsigned : Layout.Written "h" none [.signed 1 2] := .bare (by decide) (.single rfl .nil)
  have hstring : Layout.Written "3s" none [.text 3] := .bare (by decide) hthree
  have hfile : file.size ≤ Format.maxSize := by decide
  obtain ⟨-, hread, hboth⟩ := unpackText_outcome file
  obtain ⟨values, bytes, hvalues, -, hbytes, -, hsame⟩ :=
    ((hread _ _ _ hmarked).2 (by decide) 0).2.1 (by decide) (by decide)
  obtain ⟨values', bytes', hvalues', -, hbytes', hpack', -⟩ :=
    ((hread _ _ _ haligned).2 (by decide) 1).2.1 (by decide) (by decide)
  obtain rfl : [0xff, 7, 8, 9] = bytes' := Except.ok.inj hbytes'
  obtain ⟨records, hrecords, hcount, -⟩ :=
    (((hread _ _ _ hword).2 (by decide) 0).2.2 (by decide) 3).2 (by decide) (by decide)
  have hlarge := (hread _ _ _ Layout.written_oversized).1 (by decide +kernel) 0 0
  have hfirst : file.unpackText "h" 1 = .ok [.signed (-249)] := by decide +kernel
  have hsecond : file.unpackText "3s" 3 = .ok [.bytes [8, 9, 10]] := by decide +kernel
  exact ⟨hmarked, ⟨values, bytes, hvalues, hbytes, hsame rfl⟩, haligned,
    ⟨values', hvalues', hpack'⟩, hword, ⟨records, hrecords, hcount⟩, hlarge.1, hsigned, hstring,
    hfile, (hboth hfile _ _ _ _ hsigned hstring 1 _).mpr ⟨_, _, hfirst, hsecond, rfl⟩⟩

/-- The values behind a gap that is not zero do not pack into the bytes that they are read from, and
a record that would be too large is not refused as truncated. -/
theorem Source.not_packed_alike_not_truncated :
    let file : Source := ⟨⟨#[1, 0xaa, 0xaa, 0xaa, 2, 0, 0, 0]⟩, .little⟩
    let format := Format.ofLayout (some ⟨.little, true⟩) [.signed 1 1, .signed 1 4]
    (Layout.Written "@bi" (some ⟨.little, true⟩) [.signed 1 1, .signed 1 4] ∧
      file.unpackText "@bi" 0 = .ok [.signed 1, .signed 2] ∧
      file.read 0 format.size = .ok [1, 0xaa, 0xaa, 0xaa, 2, 0, 0, 0] ∧
      format.pack .little [.signed 1, .signed 2] ≠ [1, 0xaa, 0xaa, 0xaa, 2, 0, 0, 0]) ∧
    Layout.Written "9223372036854775808B" none [.unsigned 0x8000000000000000 1] ∧
      file.size < 0 + Layout.size [.unsigned 0x8000000000000000 1] ∧
      file.unpackText "9223372036854775808B" 0 = .error .oversizedLayout :=
  ⟨⟨.marked rfl rfl (.single rfl (.single rfl .nil)), by decide +kernel, by decide +kernel,
    by decide +kernel⟩, Layout.written_oversized, by decide +kernel, by decide +kernel⟩

end LinearExecutable
