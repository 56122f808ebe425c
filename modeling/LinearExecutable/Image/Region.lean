/-!
# Regions

A region is a range of memory with its initialised bytes. It is at least as large as those bytes.
-/

namespace LinearExecutable

structure Region where
  address : Int
  bytes : List UInt8
  size : Nat
  size_ge : bytes.length ≤ size

namespace Region

/-- The region of the given size, or of the size of its bytes if they are more. -/
def ofBytes (address : Int) (bytes : List UInt8) (size : Int) : Region where
  address
  bytes
  size := max bytes.length size.toNat
  size_ge := Nat.le_max_left _ _

/-- The address behind the last byte. -/
def endAddress (r : Region) : Int := r.address + r.size

end Region

end LinearExecutable
