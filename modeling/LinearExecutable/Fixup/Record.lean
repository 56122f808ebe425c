import LinearExecutable.Fixup.Form

/-!
# Fixup records

A fixup tells the loader to patch the places at some source offsets of a page with the address of a
target. Records are decoded from a module or put together by hand; in the second case nothing forces
the target to be the one that the form asks for.
-/

namespace LinearExecutable.Fixup

/-- What the patched places refer to. -/
inductive Target where
  /-- A place in an object; 16-bit selectors have no offset. -/
  | internal (object : Int) (offset? : Option Int)
  /-- An entry point of the module, through its entry table. -/
  | entry (ordinal : Int) (offset? : Option Int)
  /-- A symbol of another module, by number. -/
  | byOrdinal (library ordinal : Int)
  /-- A symbol of another module, by the place of its name in the import procedure table. -/
  | byName (library nameOffset : Int)
  deriving DecidableEq, Repr

namespace Target

/-- The target of a type with the given numbers. -/
def ofValues? : TargetType → List Value → Option Target
  | .internal, [.unsigned object] => some (.internal object none)
  | .internal, [.unsigned object, .unsigned offset] => some (.internal object (some offset))
  | .entry, [.unsigned ordinal] => some (.entry ordinal none)
  | .entry, [.unsigned ordinal, .unsigned offset] => some (.entry ordinal (some offset))
  | .importOrdinal, [.unsigned library, .unsigned ordinal] => some (.byOrdinal library ordinal)
  | .importName, [.unsigned library, .unsigned offset] => some (.byName library offset)
  | _, _ => none

/-- The offset within the module, if the target has one. -/
def offset? : Target → Option Int
  | .internal _ offset? => offset?
  | .entry _ offset? => offset?
  | .byOrdinal _ _ => none
  | .byName _ _ => none

/-- The place of the name of an import by name. -/
def nameOffset? : Target → Option Int
  | .byName _ nameOffset => some nameOffset
  | _ => none

/-- The type of a target. -/
def type : Target → TargetType
  | .internal _ _ => .internal
  | .entry _ _ => .entry
  | .byOrdinal _ _ => .importOrdinal
  | .byName _ _ => .importName

/-- The first number of a target: an object, an entry or a module. -/
def first : Target → Int
  | .internal object _ => object
  | .entry ordinal _ => ordinal
  | .byOrdinal library _ => library
  | .byName library _ => library

/-- The second number of a target. -/
def second? : Target → Option Int
  | .internal _ offset? => offset?
  | .entry _ offset? => offset?
  | .byOrdinal _ ordinal => some ordinal
  | .byName _ nameOffset => some nameOffset

end Target

/-- A fixup record. -/
structure Record where
  form : Form
  /-- Where in the page the patched places are; negative if one started on the page before. -/
  offsets : List Int
  target : Target
  additive? : Option Int
  /-- The number of bytes that the record takes up. -/
  size : Int
  deriving DecidableEq, Repr

namespace Record

/-- The kind of a record, or the failure that its number is undefined. -/
def kind (r : Record) : Except Error Kind :=
  match r.form.kind? with
  | some kind => .ok kind
  | none => .error (.undefinedKind r.form.kindCode)

def isInternal (r : Record) : Bool := r.form.targetType.isInternal

/-- Internal and no pointer: a loader that placed every object at its preferred base may skip the
record. The kind matters only for internal targets. -/
def isInternalNonPointer (r : Record) : Except Error Bool :=
  if r.isInternal then r.kind.map fun kind => !kind.isPointer else .ok false

/-! ## Bytes -/

/-- The bytes of a number that is at least zero. -/
def numberBytes (order : ByteOrder) (width : Nat) (i : Int) : List UInt8 :=
  order.wordBytes width i.toNat

/-- The bytes of a source offset: a signed word. -/
def offsetBytes (order : ByteOrder) (offset : Int) : List UInt8 :=
  order.wordBytes 2 (Word.ofSigned 2 offset)

/-- The bytes of a record. -/
def encode (order : ByteOrder) (r : Record) : List UInt8 :=
  let places := r.offsets.flatMap (offsetBytes order)
  numberBytes order 1 r.form.source ++ numberBytes order 1 r.form.flags ++
    (if r.form.hasList then numberBytes order 1 r.offsets.length else places) ++
    numberBytes order r.form.firstWidth r.target.first ++
    (match r.form.secondWidth? with
      | some width => numberBytes order width (r.target.second?.getD 0)
      | none => []) ++
    (if r.form.isAdditive then numberBytes order r.form.additiveWidth (r.additive?.getD 0)
      else []) ++
    (if r.form.hasList then places else [])

end Record

end LinearExecutable.Fixup
