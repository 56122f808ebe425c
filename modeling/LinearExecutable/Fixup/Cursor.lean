import LinearExecutable.Bytes.Source
import LinearExecutable.Fixup.Record

/-!
# Reading fixup records one after another

A `Cursor` moves through the records of one page. Every field is first checked against the end of
the page's records and then read from the source; after a failure the cursor stays where the last
complete field left it. `decodeRecord` reads one record.
-/

namespace LinearExecutable.Fixup

/-- A place among the records of a page, which end at `stop`. -/
structure Cursor where
  source : Source
  offset : Int
  stop : Int

/-- A step that reads on and may fail; the cursor survives a failure. -/
abbrev Step := EStateM Error Cursor

namespace Cursor

/-- The number of bytes up to the end of the page's records. -/
def remaining (c : Cursor) : Int := c.stop - c.offset

/-- Reads the fields of a layout. -/
def take (layout : Layout) : Step (List Value) := fun c =>
  if c.remaining < layout.size then
    .error (.pageOverrun (layout.size - c.remaining)) c
  else
    match c.source.unpack layout c.offset with
    | .ok values => .ok values { c with offset := c.offset + layout.size }
    | .error e => .error e c

end Cursor

/-- What is said about a record whose fields run past the end of the page's records: as much as is
known of its form, where it starts, and the page. -/
def nameOverrun (start page : Int) (form? : Option Form) : Error → Error
  | .pageOverrun excess => .unsupportedFixup {
      fault := .overrun start excess
      source? := form?.map Form.source
      flags? := form?.map Form.flags
      page? := some page
      offset? := some start }
  | e => e

/-- Reads the source byte and the flag byte. -/
def takeForm : Step Form := do
  match ← Cursor.take [.unsigned 2 1] with
  | [.unsigned source, .unsigned flags] => return ⟨source, flags⟩
  | _ => throw .malformed

/-- Reads a source offset, or the length of a list of them. -/
def takeSource (form : Form) : Step Int := do
  match ← Cursor.take form.sourceLayout with
  | [.unsigned count] => return count
  | [.signed offset] => return offset
  | _ => throw .malformed

def takeTarget (form : Form) : Step Target := do
  match Target.ofValues? form.targetType (← Cursor.take form.targetLayout) with
  | some target => return target
  | none => throw .malformed

def takeAdditive (form : Form) : Step (Option Int) := do
  if form.isAdditive then
    match ← Cursor.take form.additiveLayout with
    | [.unsigned n] => return some n
    | _ => throw .malformed
  else return none

/-- The source offset in a signed field. -/
def signedOffset? : Value → Option Int
  | .signed i => some i
  | _ => none

/-- Reads the list of source offsets; without one, the only source offset is `first`. -/
def takeOffsets (form : Form) (first : Int) : Step (List Int) := do
  if form.hasList then
    match (← Cursor.take [.signed first.toNat 2]).mapM signedOffset? with
    | some offsets => return offsets
    | none => throw .malformed
  else return [first]

/-- Reads the fields behind the form of a record that starts at `start`. -/
def takeFields (form : Form) (start : Int) : Step Record := do
  let first ← takeSource form
  let target ← takeTarget form
  let additive? ← takeAdditive form
  let offsets ← takeOffsets form first
  return { form, offsets, target, additive?, size := (← get).offset - start }

/-- Reads one record. -/
def decodeRecord (page : Int) : Step Record := do
  let start := (← get).offset
  let form ← takeForm.adaptExcept (nameOverrun start page none)
  match form.fault? with
  | some fault =>
    throw (.unsupportedFixup {
      fault
      source? := some form.source
      flags? := some form.flags
      page? := some page
      offset? := some start })
  | none => (takeFields form start).adaptExcept (nameOverrun start page (some form))

/-! ## Every step moves forward -/

/-- Where a step leaves the cursor, whether it fails or not. -/
def after {α : Type} (x : Step α) (c : Cursor) : Cursor :=
  match x c with
  | .ok _ next => next
  | .error _ next => next

/-- A step that never moves back and keeps the end of the page's records. -/
def Advances {α : Type} (x : Step α) : Prop :=
  ∀ c, c.offset ≤ (after x c).offset ∧ (after x c).stop = c.stop

theorem advances_pure {α : Type} (a : α) : Advances (pure a) := fun _ => ⟨Int.le_refl _, rfl⟩

theorem advances_throw {α : Type} (e : Error) : Advances (throw e : Step α) :=
  fun _ => ⟨Int.le_refl _, rfl⟩

theorem advances_get : Advances (get : Step Cursor) := fun _ => ⟨Int.le_refl _, rfl⟩

theorem get_apply (c : Cursor) : (get : Step Cursor) c = .ok c c := rfl

theorem throw_apply {α : Type} (e : Error) (c : Cursor) : (throw e : Step α) c = .error e c := rfl

theorem advances_bind {α β : Type} {x : Step α} {f : α → Step β} (hx : Advances x)
    (hf : ∀ a, Advances (f a)) : Advances (x >>= f) := by
  intro c
  have h := hx c
  simp only [after, bind, EStateM.bind] at h ⊢
  cases hc : x c with
  | error e next => simpa [hc] using h
  | ok a next =>
    have h' := hf a next
    simp only [hc, after] at h h' ⊢
    exact ⟨Int.le_trans h.1 h'.1, h'.2.trans h.2⟩

theorem advances_take (layout : Layout) : Advances (Cursor.take layout) := by
  intro c
  unfold after Cursor.take
  split
  · rename_i h
    split at h
    · contradiction
    · split at h
      · cases h
        exact ⟨Int.le_add_of_nonneg_right (Int.natCast_nonneg _), rfl⟩
      · contradiction
  · rename_i h
    split at h
    · cases h
      exact ⟨Int.le_refl _, rfl⟩
    · split at h
      · contradiction
      · cases h
        exact ⟨Int.le_refl _, rfl⟩

/-- Fields that were read lie behind the cursor. -/
theorem offset_of_take {layout : Layout} {c next : Cursor} {values : List Value}
    (h : Cursor.take layout c = .ok values next) :
    next.offset = c.offset + layout.size ∧ next.stop = c.stop ∧ layout.size ≤ c.remaining := by
  unfold Cursor.take at h
  split at h
  · contradiction
  · split at h
    · cases h
      exact ⟨rfl, rfl, by omega⟩
    · contradiction

theorem advances_takeSource (form : Form) : Advances (takeSource form) := by
  refine advances_bind (advances_take _) fun values => ?_
  split
  · exact advances_pure _
  · exact advances_pure _
  · exact advances_throw _

theorem advances_takeTarget (form : Form) : Advances (takeTarget form) := by
  refine advances_bind (advances_take _) fun values => ?_
  split
  · exact advances_pure _
  · exact advances_throw _

theorem advances_takeAdditive (form : Form) : Advances (takeAdditive form) := by
  unfold takeAdditive
  split
  · refine advances_bind (advances_take _) fun values => ?_
    split
    · exact advances_pure _
    · exact advances_throw _
  · exact advances_pure _

theorem advances_takeOffsets (form : Form) (first : Int) : Advances (takeOffsets form first) := by
  unfold takeOffsets
  split
  · refine advances_bind (advances_take _) fun values => ?_
    split
    · exact advances_pure _
    · exact advances_throw _
  · exact advances_pure _

theorem advances_takeFields (form : Form) (start : Int) : Advances (takeFields form start) :=
  advances_bind (advances_takeSource _) fun _ =>
    advances_bind (advances_takeTarget _) fun _ =>
      advances_bind (advances_takeAdditive _) fun _ =>
        advances_bind (advances_takeOffsets _ _) fun _ =>
          advances_bind advances_get fun _ => advances_pure _

theorem offset_of_takeForm {c next : Cursor} {form : Form} (h : takeForm c = .ok form next) :
    next.offset = c.offset + 2 ∧ next.stop = c.stop := by
  simp only [takeForm, bind, EStateM.bind] at h
  cases ht : Cursor.take [.unsigned 2 1] c with
  | error e next' => simp [ht] at h
  | ok values next' =>
    have hoff := offset_of_take ht
    simp only [ht] at h
    split at h
    · cases h
      exact ⟨by simpa [Layout.size, Field.size] using hoff.1, hoff.2.1⟩
    · contradiction

/-- A record that was read takes up at least its first two bytes. -/
theorem offset_lt_of_decodeRecord {page : Int} {c next : Cursor} {record : Record}
    (h : decodeRecord page c = .ok record next) : c.offset < next.offset ∧ next.stop = c.stop := by
  simp only [decodeRecord, bind, EStateM.bind, get_apply, EStateM.adaptExcept] at h
  cases hf : takeForm c with
  | error e next' => simp [hf] at h
  | ok form next' =>
    have hoff := offset_of_takeForm hf
    simp only [hf] at h
    cases hfault : form.fault? with
    | some fault => simp [hfault, throw_apply] at h
    | none =>
      have hrest := advances_takeFields form c.offset next'
      simp only [after] at hrest
      cases hr : takeFields form c.offset next' with
      | error e last => simp [hfault, EStateM.adaptExcept, hr] at h
      | ok r last =>
        simp only [hfault, EStateM.adaptExcept, hr] at h hrest
        cases h
        omega

end LinearExecutable.Fixup
