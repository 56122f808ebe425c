import LinearExecutable.Error

/-!
# Views of memory

Looking up an address gives a `View`: the initialised bytes from there on, and how many bytes of
memory follow in all. Bytes of memory that are not initialised read as zero.
-/

namespace LinearExecutable

/-- The memory from an address on. -/
structure View where
  /-- The initialised bytes. -/
  bytes : List UInt8
  /-- The number of bytes of memory, initialised or not. -/
  remaining : Int
  deriving DecidableEq, Repr

namespace View

/-- The first `n` bytes, filled up with zeros. -/
def zeroFilled (n : Nat) (bytes : List UInt8) : List UInt8 :=
  let present := bytes.take n
  present ++ List.replicate (n - present.length) 0

/-- The first `size` bytes of memory, or nothing if there are not that many. -/
def read? (view : View) (size : Int) : Option (List UInt8) :=
  if size < 0 ∨ view.remaining < size then none else some (zeroFilled size.toNat view.bytes)

/-- The bytes up to the first zero. -/
def string (view : View) : List UInt8 :=
  view.bytes.takeWhile (· ≠ 0)

/-- The two-byte units up to the first one that is zero; a single byte at the end is no unit. -/
def wideUnits : List UInt8 → List UInt8
  | a :: b :: rest => if a = 0 ∧ b = 0 then [] else a :: b :: wideUnits rest
  | _ => []

/-- The bytes of a string of two-byte units. -/
def wideString (view : View) : List UInt8 :=
  wideUnits view.bytes

end View

end LinearExecutable
