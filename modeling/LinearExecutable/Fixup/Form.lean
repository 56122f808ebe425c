import LinearExecutable.Bytes.Layout
import LinearExecutable.Error

/-!
# The form of a fixup record

The first two bytes of a fixup record, the source byte and the flag byte, decide which fields follow
and how wide they are. `Form` holds the two numbers; everything else here is read off their bits, by
division and remainder, so it makes sense for numbers that are no bytes, too.
-/

namespace LinearExecutable.Fixup

/-- What is patched at the source of a fixup. -/
inductive Kind where
  | byte
  | selector16
  | pointer16_16
  | offset16
  | pointer16_32
  | offset32
  | selfRelative32
  deriving DecidableEq, Repr

namespace Kind

def name : Kind → String
  | .byte => "BYTE"
  | .selector16 => "SELECTOR_16"
  | .pointer16_16 => "POINTER_16_16"
  | .offset16 => "OFFSET_16"
  | .pointer16_32 => "POINTER_16_32"
  | .offset32 => "OFFSET_32"
  | .selfRelative32 => "SELF_RELATIVE_32"

def ofCode? : Nat → Option Kind
  | 0 => some .byte
  | 2 => some .selector16
  | 3 => some .pointer16_16
  | 5 => some .offset16
  | 6 => some .pointer16_32
  | 7 => some .offset32
  | 8 => some .selfRelative32
  | _ => none

/-- Selectors and far pointers: they have a 16:16 alias, and a loader always applies them. -/
def isPointer : Kind → Bool
  | .selector16 | .pointer16_16 | .pointer16_32 => true
  | _ => false

end Kind

/-- What the target of a fixup is. -/
inductive TargetType where
  | internal
  | importOrdinal
  | importName
  /-- Internal, through the entry table. -/
  | entry
  deriving DecidableEq, Repr

namespace TargetType

def name : TargetType → String
  | .internal => "INTERNAL"
  | .importOrdinal => "IMPORT_ORDINAL"
  | .importName => "IMPORT_NAME"
  | .entry => "INTERNAL_ENTRY"

/-- The type with a number from zero to three; greater numbers are not asked for. -/
def ofCode : Nat → TargetType
  | 0 => .internal
  | 1 => .importOrdinal
  | 2 => .importName
  | _ => .entry

/-- Whether the target lies in the module itself. -/
def isInternal : TargetType → Bool
  | .internal | .entry => true
  | .importOrdinal | .importName => false

end TargetType

/-- The source byte and the flag byte of a record. -/
structure Form where
  source : Int
  flags : Int
  deriving DecidableEq, Repr

/-- Whether the bit worth `weight` is set in a number. -/
def hasBit (weight : Int) (i : Int) : Bool :=
  i / weight % 2 = 1

namespace Form

/-- The number of the kind: the low four bits of the source byte. -/
def kindCode (f : Form) : Nat := (f.source % 16).toNat

def kind? (f : Form) : Option Kind := Kind.ofCode? f.kindCode

/-- The upper four bits of the source byte. -/
def sourceFlags (f : Form) : Int := f.source % 256 / 16 * 16

/-- The fixup refers to the 16:16 alias of an object. -/
def isAlias (f : Form) : Bool := hasBit 0x10 f.source

/-- The source offsets are a list, which stands at the end of the record. -/
def hasList (f : Form) : Bool := hasBit 0x20 f.source

/-- The type of the target: the low two bits of the flag byte. -/
def targetType (f : Form) : TargetType := TargetType.ofCode (f.flags % 4).toNat

/-- The upper six bits of the flag byte. -/
def targetFlags (f : Form) : Int := f.flags % 256 / 4 * 4

def isAdditive (f : Form) : Bool := hasBit 0x04 f.flags

/-- The record is the head of a chain that runs through the page. -/
def isChained (f : Form) : Bool := hasBit 0x08 f.flags

/-! ## The fields that follow -/

/-- The width of the object number, or of the ordinal of an entry or a module. -/
def firstWidth (f : Form) : Nat := if hasBit 0x40 f.flags then 2 else 1

/-- The width of target offsets, name offsets and wide ordinals. -/
def offsetWidth (f : Form) : Nat := if hasBit 0x10 f.flags then 4 else 2

/-- The width of an imported ordinal. -/
def ordinalWidth (f : Form) : Nat := if hasBit 0x80 f.flags then 1 else f.offsetWidth

def additiveWidth (f : Form) : Nat := if hasBit 0x20 f.flags then 4 else 2

/-- The width of the second number of the target; 16-bit selectors within the module have none. -/
def secondWidth? (f : Form) : Option Nat :=
  match f.targetType with
  | .internal | .entry => if f.kindCode = 2 then none else some f.offsetWidth
  | .importOrdinal => some f.ordinalWidth
  | .importName => some f.offsetWidth

/-- The one or two numbers of the target. -/
def targetLayout (f : Form) : Layout :=
  .unsigned 1 f.firstWidth :: (f.secondWidth?.map fun width => Field.unsigned 1 width).toList

/-- One source offset, or the length of the list of them. -/
def sourceLayout (f : Form) : Layout :=
  if f.hasList then [.unsigned 1 1] else [.signed 1 2]

/-- The number added to the target, if there is one. -/
def additiveLayout (f : Form) : Layout :=
  if f.isAdditive then [.unsigned 1 f.additiveWidth] else []

/-- The number of bytes of a record; `count` is the length of its list of source offsets. -/
def recordSize (f : Form) (count : Int) : Int :=
  2 + f.sourceLayout.size + f.targetLayout.size + f.additiveLayout.size +
    (if f.hasList then 2 * count else 0)

/-! ## Forms that can be decoded -/

/-- Why a record of this form cannot be decoded, if it cannot. -/
def fault? (f : Form) : Option FixupFault :=
  match f.kind? with
  | none => some (.undefinedKind f.kindCode)
  | some kind =>
    if f.isAlias && !kind.isPointer then some (.alias f.kindCode)
    else if f.isChained then
      if kind ≠ .offset32 then some .chainedKind
      else if !f.targetType.isInternal then some .chainedTarget
      else if f.hasList then some .chainedList
      else none
    else none

end Form

end LinearExecutable.Fixup
