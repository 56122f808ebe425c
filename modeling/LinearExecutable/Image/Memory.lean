import LinearExecutable.Image.Module
import LinearExecutable.Image.Region
import LinearExecutable.Image.View
import LinearExecutable.IteratedPage

/-!
# The memory of a module

An object is loaded by laying its pages side by side, each cut or filled up with zeros to the page
size, and cutting the whole at the size of the object. Memory behind that is not initialised. No
fixup is applied.
-/

namespace LinearExecutable

namespace ModuleImage

/-- The bytes that a page holds once it is loaded; pages that are neither stored nor iterated hold
none. -/
def loadedPage (m : ModuleImage) (page : PageEntry) (stored : List UInt8) :
    Except Error (List UInt8) :=
  match page.kind with
  | .legal => .ok stored
  | .iterated => IteratedPage.expand m.order m.header.pageSize stored
  | .invalid | .zeroFilled | .range | .compressed => .ok []

/-- Pages side by side, each cut or filled up to the page size, in `room` bytes at most. -/
def layPages (pageSize : Nat) : Nat → List (List UInt8) → List UInt8
  | _, [] => []
  | room, page :: rest =>
    if room = 0 then []
    else
      let here := min pageSize room
      View.zeroFilled here page ++ layPages pageSize (room - here) rest

/-- The initialised bytes of an object. -/
def buildObject (m : ModuleImage) (o : ObjectEntry) : Except Error (List UInt8) := do
  let loaded ← (ofObject o (m.pageTable.zip m.pages)).mapM fun (page, stored) =>
    m.loadedPage page stored
  return layPages m.header.pageSize o.virtualSize loaded

/-- The initialised bytes of every object. -/
def objectData (m : ModuleImage) : Except Error (List (List UInt8)) :=
  m.objects.mapM m.buildObject

/-- The object that contains an address, and the offset of the address in it. -/
def relativeAddress (m : ModuleImage) (address : Int) : Except Error (ObjectEntry × Int) :=
  match m.objects.find? fun o => o.containsAddress address with
  | some o => .ok (o, address - o.base)
  | none => .error (.invalidAddress (some m.path) address)

/-- The memory from an address on. -/
def seek (m : ModuleImage) (address : Int) : Except Error View := do
  let (o, offset) ← m.relativeAddress address
  let data ← m.objectData
  match data[o.number - 1]? with
  | some bytes => return ⟨bytes.drop offset.toNat, o.virtualSize - offset⟩
  | none => throw .malformed

/-! ## Regions -/

/-- The regions of the objects of a class. -/
def regions (m : ModuleImage) (wanted : ObjectEntry → Bool) : Except Error (List Region) := do
  let data ← m.objectData
  return ((m.objects.zip data).filter fun (o, _) => wanted o).map fun (o, bytes) =>
    Region.ofBytes o.base bytes o.virtualSize

end ModuleImage

namespace ObjectEntry

/-- The object holds code. -/
def isCode (o : ObjectEntry) : Bool := o.isExecutable

/-- The object holds data that may change. -/
def isData (o : ObjectEntry) : Bool := o.isWritable && !o.isExecutable

/-- The object holds data that never change; resources do not count. -/
def isConst (o : ObjectEntry) : Bool :=
  o.isReadable && !o.isWritable && !o.isExecutable && !o.isResource

end ObjectEntry

end LinearExecutable
