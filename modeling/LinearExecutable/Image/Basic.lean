import LinearExecutable.Image.Flat
import LinearExecutable.Image.Imports
import LinearExecutable.Image.Memory

/-!
# Images

What a program can ask of an image, whatever it was made from: a decoded module, a flat buffer, or
nothing at all. Reads go through `Image.seek` alone. A question that a kind of image has no answer
for is refused.
-/

namespace LinearExecutable

inductive Image where
  /-- An image of which only the path is known. -/
  | unmapped (path : String)
  | flat (path : String) (image : FlatImage)
  | ofModule (image : ModuleImage)

namespace Image

/-- The refusal of a question without an answer. -/
def unanswered {α : Type} : Except Error α := .error (.notImplemented "")

/-- The name of the file of an image, as it is shown. -/
def path : Image → String
  | .unmapped path => path
  | .flat path _ => path
  | .ofModule m => m.path

/-- The memory from an address on. -/
def seek : Image → Int → Except Error View
  | .unmapped _, _ => unanswered
  | .flat _ image, address => image.seek address
  | .ofModule m, address => m.seek address

/-- The places that the loader patches with symbols of other modules. -/
def imports : Image → Except Error (List Import)
  | .unmapped _ | .flat _ _ => unanswered
  | .ofModule m => m.imports

/-- The lowest address of the image. -/
def imageBase : Image → Except Error Nat
  | .unmapped _ | .flat _ _ => unanswered
  | .ofModule m => .ok m.imageBase

/-- The number of the object that contains an address, and the offset in it. -/
def relativeAddress : Image → Int → Except Error (Nat × Int)
  | .unmapped _, _ | .flat _ _, _ => unanswered
  | .ofModule m, address => (m.relativeAddress address).map fun (o, offset) => (o.number, offset)

/-- The regions of the objects of a class. -/
def regions : Image → (ObjectEntry → Bool) → Except Error (List Region)
  | .unmapped _, _ | .flat _ _, _ => unanswered
  | .ofModule m, wanted => m.regions wanted

def codeRegions (image : Image) : Except Error (List Region) := image.regions ObjectEntry.isCode

def dataRegions (image : Image) : Except Error (List Region) := image.regions ObjectEntry.isData

def constRegions (image : Image) : Except Error (List Region) := image.regions ObjectEntry.isConst

/-! ## Reading -/

/-- Whether an address lies in the image. -/
def isValidAddress (image : Image) (address : Int) : Except Error Bool :=
  match image.seek address with
  | .ok _ => .ok true
  | .error (.invalidAddress _ _) => .ok false
  | .error e => .error e

/-- `size` bytes of memory from an address on. -/
def read (image : Image) (address size : Int) : Except Error (List UInt8) := do
  let view ← image.seek address
  match view.read? size with
  | some bytes => return bytes
  | none => throw (.invalidRead image.path size address)

/-- The string at an address: the bytes up to the first zero. -/
def readString (image : Image) (address : Int) : Except Error (List UInt8) :=
  (image.seek address).map View.string

/-- The string of two-byte units at an address, up to the first unit that is zero. -/
def readWideString (image : Image) (address : Int) : Except Error (List UInt8) := do
  let bytes := (← image.seek address).wideString
  if bytes.length % 2 = 0 then return bytes else throw (.invalidString address)

end Image

end LinearExecutable
