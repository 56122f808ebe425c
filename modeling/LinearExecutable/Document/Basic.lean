import LinearExecutable.Decimal.Binary64
import LinearExecutable.Document.Timestamp

/-!
# Documents

A document is a tree of mappings and lists with scalars at its leaves. The entries of a mapping keep
their order; no two of them have the same key.
-/

namespace LinearExecutable

open Document (Timestamp ReadFault)

inductive Document where
  | null
  | bool (b : Bool)
  | int (i : Int)
  | float (x : Binary64)
  | text (s : String)
  /-- A text with code points that are no characters. -/
  | brokenText (codes : List Nat)
  | bytes (bs : List UInt8)
  | time (t : Timestamp)
  /-- A scalar with a tag of its own; what it stands for is not known. -/
  | tagged (s : String)
  | list (items : List Document)
  | mapping (entries : List (Document × Document))
  deriving Repr

namespace Document

/-! ## Keys -/

/-- The whole number that a scalar counts as; true and false count as one and zero. -/
def wholeNumber? : Document → Option Int
  | .bool b => some (if b then 1 else 0)
  | .int i => some i
  | .float x => x.toInt?
  | _ => none

mutual

/-- Whether two documents are the same key: numbers are by value, texts by their characters, and
the order of entries does not count. A scalar with a tag of its own is like no other. -/
def isSameKey (a b : Document) : Bool :=
  match a, b with
  | .null, .null => true
  | .text s, .text t => s = t
  | .brokenText s, .brokenText t => s = t
  | .bytes s, .bytes t => s = t
  | .time s, .time t => s = t
  | .float .notANumber, .float .notANumber => true
  | .float x, .float y => x.isEqual y
  | .list xs, .list ys => areSameKeys xs ys
  | .mapping xs, .mapping ys => xs.length = ys.length && areAmong xs ys
  | _, _ =>
    match a.wholeNumber?, b.wholeNumber? with
    | some i, some j => i = j
    | _, _ => false
termination_by structural a

/-- Whether two lists have the same items as keys. -/
def areSameKeys (xs ys : List Document) : Bool :=
  match xs, ys with
  | [], [] => true
  | x :: xs, y :: ys => isSameKey x y && areSameKeys xs ys
  | _, _ => false
termination_by structural xs

/-- Whether all entries of one mapping are entries of the other. -/
def areAmong (xs ys : List (Document × Document)) : Bool :=
  match xs with
  | [] => true
  | (key, value) :: xs =>
    (ys.any fun (k, v) => isSameKey key k && isSameKey value v) && areAmong xs ys
termination_by structural xs

end

/-- Why something cannot stand within a key: lists and mappings can be keys, but they cannot be
parts of one. -/
def insideKeyFault? : Document → Option ReadFault
  | .list _ => some .listInKey
  | .mapping _ => some .mappingInKey
  | _ => none

/-- Why a document cannot be a key. -/
def keyFault? : Document → Option ReadFault
  | .list items => items.findSome? insideKeyFault?
  | .mapping entries => entries.findSome? fun (_, value) => insideKeyFault? value
  | _ => none

/-- Whether a key is among those of entries. -/
def hasKey (entries : List (Document × Document)) (key : Document) : Bool :=
  entries.any fun (other, _) => isSameKey other key

/-- The value of an entry whose key is a text. -/
def field? (entries : List (Document × Document)) (name : String) : Option Document :=
  (entries.find? fun (key, _) => isSameKey key (.text name)).map Prod.snd

/-! ## Fields -/

/-- Fields as the entries of a mapping. -/
def entriesOf (fields : List (String × Document)) : List (Document × Document) :=
  fields.map fun (name, doc) => (.text name, doc)

/-- A mapping with one field, which is a mapping as well. -/
def nested (name : String) (fields : List (String × Document)) : Document :=
  .mapping [(.text name, .mapping (entriesOf fields))]

end Document

end LinearExecutable
