import LinearExecutable.Error
import LinearExecutable.Image.View

/-!
# Flat images

A flat image is one buffer that is loaded at address zero, with zeros behind it up to its size.
-/

namespace LinearExecutable

structure FlatImage where
  bytes : List UInt8
  size : Nat
  size_ge : bytes.length ≤ size

namespace FlatImage

/-- The image of the given size, or of the size of its bytes if they are more. -/
def ofBytes (bytes : List UInt8) (size : Int) : FlatImage where
  bytes
  size := bytes.length + (size.toNat - bytes.length)
  size_ge := Nat.le_add_right _ _

/-- The memory from an address on. -/
def seek (image : FlatImage) (address : Int) : Except Error View :=
  if 0 ≤ address ∧ address < image.size then
    .ok ⟨image.bytes.drop address.toNat, image.size - address⟩
  else .error (.invalidAddress none address)

end FlatImage

end LinearExecutable
