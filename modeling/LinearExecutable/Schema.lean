import LinearExecutable.Document.Block

/-!
# Configuration files by their schemas

A schema says which items a configuration has: their names, the keys that they are read under, and
their kinds. A configuration is a document with all of them under one key. How text becomes a
document, how a document becomes values, and both ways back is up to a library; here is only what
is asked of it, and in which order.
-/

namespace LinearExecutable

namespace Schema

/-- A number that is at least a given one. -/
abbrev AtLeast (least : Nat) := { n : Nat // least ≤ n }

/-- What an item holds. -/
inductive Kind where
  | truth
  /-- A number of at least `least`, or none. -/
  | count (least : Nat)
  deriving DecidableEq, Repr

def Kind.Value : Kind → Type
  | .truth => Bool
  | .count least => Option (AtLeast least)

/-- The scalar for a value. -/
def Kind.document : (kind : Kind) → kind.Value → Document
  | .truth, b => .bool b
  | .count _, none => .null
  | .count _, some n => .int n.val

/-- An item: its name, the keys that it is read under, the first that is there counts, and its value
if none is. -/
structure Item where
  name : String
  keys : List String
  kind : Kind
  unset : kind.Value

/-- One value for each item. -/
def Values : List Item → Type
  | [] => Unit
  | item :: items => item.kind.Value × Values items

/-- The items by their names, with the scalars for their values. -/
def fields : (items : List Item) → Values items → List (String × Document)
  | [], _ => []
  | item :: items, (value, values) => (item.name, item.kind.document value) :: fields items values

end Schema

open Schema (Item Values)

/-- The schema of a configuration whose items are under one key. -/
structure Schema where
  key : String
  items : List Item
  /-- The values if there is no such key. -/
  unset : Values items

/-- What is wrong with a part of a configuration. -/
inductive IssueKind where
  | notAMapping
  | notATruthValue
  | unreadableTruthValue
  | notACount
  | unreadableCount
  | fractionalCount
  | infiniteCount
  /-- A count with a point has more than 64 bits, or one in a text has too many digits. -/
  | oversizedCount
  | countBelowLeast
  /-- A text has code points that are no characters. -/
  | brokenText
  deriving DecidableEq, Repr

/-- A part of a configuration that cannot be used: the keys that lead to it and what is wrong. -/
structure Issue where
  path : List String
  kind : IssueKind
  deriving DecidableEq, Repr

/-- Why a configuration cannot be used. -/
inductive ConfigFault where
  /-- No document comes out of the text. -/
  | unreadable (fault : Document.ReadFault)
  | invalid (issues : List Issue)
  deriving DecidableEq, Repr

/-- What reads and writes configurations. -/
structure Library where
  /-- The document of a text. -/
  load : String → Except Document.ReadFault Document
  /-- The values in a document. -/
  validate : (s : Schema) → Document → Except (List Issue) (Values s.items)
  /-- The document of values. -/
  represent : (s : Schema) → Values s.items → Document
  /-- The text of a document. -/
  dump : Document → Except Document.WriteFault String

/-- Text whose lines all end with a newline character. -/
def unifyLineEnds : List Char → List Char
  | '\r' :: '\n' :: rest => '\n' :: unifyLineEnds rest
  | '\r' :: rest => '\n' :: unifyLineEnds rest
  | c :: rest => c :: unifyLineEnds rest
  | [] => []

namespace Library

variable (lib : Library) (s : Schema)

/-- The values in a configuration text. -/
def read (text : String) : Except ConfigFault (Values s.items) := do
  let doc ← (lib.load text).mapError .unreadable
  (lib.validate s doc).mapError .invalid

/-- The values in the text of a configuration file. The lines of a file may end in any of three
ways, which are one to those who read it. -/
def readFile (text : String) : Except ConfigFault (Values s.items) :=
  lib.read s (String.ofList (unifyLineEnds text.toList))

/-- The configuration text of values. -/
def write (values : Values s.items) : Except Document.WriteFault String :=
  lib.dump (lib.represent s values)

end Library

end LinearExecutable
