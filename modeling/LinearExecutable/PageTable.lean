import LinearExecutable.Header

/-!
# The page table

Every page of a module has an entry that says what kind of page it is and where its data stand. The
two forms of an entry give that in different ways: LX entries hold an offset and a size; LE entries
hold the number of a physical page, and every physical page is full except the last one.
-/

namespace LinearExecutable

/-- What a page holds when it is loaded. -/
inductive PageKind where
  /-- Data as stored. -/
  | legal
  /-- Data stored as repetitions. -/
  | iterated
  | invalid
  | zeroFilled
  | range
  | compressed
  deriving DecidableEq, Repr

namespace PageKind

def name : PageKind → String
  | .legal => "LEGAL"
  | .iterated => "ITERATED"
  | .invalid => "INVALID"
  | .zeroFilled => "ZERO_FILLED"
  | .range => "RANGE"
  | .compressed => "COMPRESSED"

/-- The number that stands for a kind in a page table. -/
def code : PageKind → Nat
  | .legal => 0
  | .iterated => 1
  | .invalid => 2
  | .zeroFilled => 3
  | .range => 4
  | .compressed => 5

def ofCode? : Nat → Option PageKind
  | 0 => some .legal
  | 1 => some .iterated
  | 2 => some .invalid
  | 3 => some .zeroFilled
  | 4 => some .range
  | 5 => some .compressed
  | _ => none

/-- Whether pages of this kind have data in the file. -/
def hasData : PageKind → Bool
  | .legal | .iterated | .compressed => true
  | .invalid | .zeroFilled | .range => false

@[simp] theorem ofCode?_code (kind : PageKind) : ofCode? kind.code = some kind := by
  cases kind <;> rfl

/-- The kinds are numbered from zero to five. -/
theorem ofCode?_eq_none_iff (n : Nat) : ofCode? n = none ↔ 5 < n := by
  match n with
  | 0 | 1 | 2 | 3 | 4 | 5 => simp [ofCode?]
  | n + 6 => simp [ofCode?]

end PageKind

/-- An entry of the page table. -/
structure PageEntry where
  /-- Counted from one. -/
  number : Nat
  form : PageForm
  /-- LE: the number of a physical page. LX: where the data start, before the shift. -/
  offset : Nat
  size : Int
  kind : PageKind
  deriving DecidableEq, Repr

namespace PageEntry

/-- What an entry stores: an offset, a size, which only LX entries have, and the code of a kind. -/
structure Stored where
  offset : Nat
  size : Nat
  code : Nat
  deriving DecidableEq, Repr

/-- The fields of an entry. -/
def layout : PageForm → Layout
  | .le => [.unsigned 1 4]
  | .lx => [.unsigned 1 4, .unsigned 2 2]

/-- What is stored in the values of an entry. -/
def Stored.ofValues? : PageForm → List Value → Option Stored
  | .le, [.unsigned word] => some ⟨word / 256, 0, word % 256⟩
  | .lx, [.unsigned offset, .unsigned size, .unsigned code] => some ⟨offset, size, code⟩
  | _, _ => none

/-- LE entries stand high byte first, whatever the order of the module. -/
def storedOrder (order : ByteOrder) : PageForm → ByteOrder
  | .le => .big
  | .lx => order

/-- The kind of a page, or the failure that its flags are unknown. -/
def kindOf (number code : Nat) : Except Error PageKind :=
  match PageKind.ofCode? code with
  | some kind => .ok kind
  | none => .error (.format (.pageFlags number code))

/-- The greatest number of a physical page that is in use, or zero. -/
def lastPhysical (pages : List (Stored × PageKind)) : Nat :=
  ((pages.filter fun (_, kind) => kind.hasData).map fun (stored, _) => stored.offset).foldl max 0

/-- The number of bytes of a physical page. -/
def physicalSize (last : Nat) (pageSize lastPageSize : Int) (offset : Nat) (kind : PageKind) :
    Int :=
  if !kind.hasData then 0
  else if offset = last ∧ lastPageSize ≠ 0 then lastPageSize
  else pageSize

/-- The size of a page: stored, or implied by its place. -/
def sizeOf (form : PageForm) (last : Nat) (pageSize lastPageSize : Int) (stored : Stored)
    (kind : PageKind) : Int :=
  match form with
  | .le => physicalSize last pageSize lastPageSize stored.offset kind
  | .lx => stored.size

/-- The entries of a table from what it stores. -/
def ofStored (form : PageForm) (pageSize lastPageSize : Int) (pages : List (Stored × PageKind)) :
    List PageEntry :=
  (pages.zipIdx 1).map fun ((stored, kind), number) =>
    { number, form, offset := stored.offset, kind
      size := sizeOf form (lastPhysical pages) pageSize lastPageSize stored kind }

/-- The entries of a page table, and the offset behind it. -/
def readTable (source : Source) (offset count : Int) (form : PageForm)
    (pageSize lastPageSize : Int) : Except Error (List PageEntry × Int) := do
  let records ← (source.withOrder (storedOrder source.order form)).unpackMany (layout form) offset
    count
  match records.mapM (Stored.ofValues? form) with
  | none => throw .malformed
  | some stored =>
    let kinds ← (stored.zipIdx 1).mapM fun (page, number) => kindOf number page.code
    return (ofStored form pageSize lastPageSize (stored.zip kinds), offset + count * form.entrySize)

/-- The bytes of an entry. -/
def encode (order : ByteOrder) (page : PageEntry) : List UInt8 :=
  match page.form with
  | .le => ByteOrder.big.wordBytes 4 (page.offset * 256 + page.kind.code)
  | .lx =>
    order.wordBytes 4 page.offset ++ order.wordBytes 2 page.size.toNat ++
      order.wordBytes 2 page.kind.code

end PageEntry

end LinearExecutable
