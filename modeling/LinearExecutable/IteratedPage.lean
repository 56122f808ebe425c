import LinearExecutable.Bytes.Order
import LinearExecutable.Error

/-!
# Iterated pages

The data of an iterated page are a series of records: how often a pattern is repeated, how long it
is, and the pattern. The page is what they spell, cut at the page size; records behind a full page
and fewer than four bytes at the end are not looked at.
-/

namespace LinearExecutable.IteratedPage

/-- A pattern that is repeated. -/
structure Run where
  repeats : Nat
  pattern : List UInt8
  deriving DecidableEq, Repr

/-- The first `room` bytes of a pattern that is repeated. -/
def Run.fill (pattern : List UInt8) : Nat → Nat → List UInt8
  | 0, _ => []
  | repeats + 1, room =>
    if room = 0 then []
    else
      let first := pattern.take room
      first ++ fill pattern repeats (room - first.length)

/-- The bytes that a run spells. -/
def Run.toList (run : Run) : List UInt8 :=
  (List.replicate run.repeats run.pattern).flatten

/-- The record of a run. -/
def Run.encode (order : ByteOrder) (run : Run) : List UInt8 :=
  order.wordBytes 2 run.repeats ++ order.wordBytes 2 run.pattern.length ++ run.pattern

/-- The first `room` bytes that the records starting at `offset` spell. -/
def expandFrom (order : ByteOrder) (offset room : Nat) :
    List UInt8 → Except Error (List UInt8)
  | b₀ :: b₁ :: b₂ :: b₃ :: rest => do
    if room = 0 then return []
    let length := order.word [b₂, b₃]
    let pattern := rest.take length
    if pattern.length < length then throw (.truncated (.iterated offset))
    let spelled := Run.fill pattern (order.word [b₀, b₁]) room
    let others ← expandFrom order (offset + 4 + length) (room - spelled.length) (rest.drop length)
    return spelled ++ others
  | _ => return []
termination_by bytes => bytes.length
decreasing_by
  simp
  omega

/-- The page that the records spell; a negative page size is as good as zero. -/
def expand (order : ByteOrder) (pageSize : Int) (data : List UInt8) :
    Except Error (List UInt8) :=
  expandFrom order 0 pageSize.toNat data

end LinearExecutable.IteratedPage
