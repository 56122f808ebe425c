import LinearExecutable.Bytes.Source

/-!
# Name tables

Names are stored behind a byte that gives their length. The import module table holds as many names
as the header declares; the resident name table gives each name an ordinal and ends with an empty
name.
-/

namespace LinearExecutable

/-- A name as text: every byte that is no ASCII character stands for the replacement character. -/
def nameText (bytes : List UInt8) : String :=
  String.ofList (bytes.map fun b => if b.toNat < 0x80 then Char.ofNat b.toNat else '\ufffd')

/-- A name with its length in front. -/
def countedName (name : List UInt8) : List UInt8 :=
  UInt8.ofNat name.length :: name

namespace Source

theorem ok_of_require {source : Source} {offset size : Int}
    (h : source.require offset size = .ok ()) :
    0 ≤ offset ∧ 0 ≤ size ∧ offset + size ≤ source.size := by
  unfold require at h
  split at h
  · contradiction
  · omega

/-- A string that was read has its length byte inside the source. -/
theorem lt_of_readCounted {source : Source} {offset next : Int} {name : List UInt8}
    (h : source.readCounted offset = .ok (name, next)) :
    offset < next ∧ next ≤ source.size := by
  simp only [readCounted, word, unpack, read, bind, Except.bind, pure, Except.pure] at h
  split at h
  · contradiction
  · split at h
    · contradiction
    · rename_i hreq
      simp only [Except.ok.injEq, Prod.mk.injEq] at h
      split at hreq
      · contradiction
      · rename_i hr
        have := ok_of_require hr
        omega

end Source

/-- A name with its ordinal. -/
structure ResidentName where
  name : String
  ordinal : Nat
  deriving DecidableEq, Repr

namespace ResidentName

/-- The names from an offset on, up to an empty one. -/
def readTable (source : Source) (offset : Int) : Except Error (List ResidentName) := do
  let length ← source.word 1 offset
  if length = 0 then return []
  match h : source.readCounted offset with
  | .error e => throw e
  | .ok (name, next) =>
    let ordinal ← source.word 2 next
    let others ← readTable source (next + 2)
    return ⟨nameText name, ordinal⟩ :: others
termination_by (source.size - offset).toNat
decreasing_by
  have := Source.lt_of_readCounted h
  omega

/-- The record of a name given as bytes. -/
def encode (order : ByteOrder) (name : List UInt8) (ordinal : Nat) : List UInt8 :=
  countedName name ++ order.wordBytes 2 ordinal

end ResidentName

/-- `count` names that follow one another from an offset on. -/
def readNames (source : Source) (offset : Int) : Nat → Except Error (List String)
  | 0 => return []
  | count + 1 => do
    let (name, next) ← source.readCounted offset
    let others ← readNames source next count
    return nameText name :: others

end LinearExecutable
