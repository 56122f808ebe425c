import LinearExecutable.Fixup.Record

/-!
# Chained fixups

Fixups of one page that share the upper bits of their target may form a chain. Only the head stands
in the fixup record table; the 32-bit word at each patched place holds the offset of the next place
(its upper 12 bits) and the lower 20 bits of the target. A chain ends with the offset 0xFFF or with
a place that names itself. It has to end after as many links as a page has words.
-/

namespace LinearExecutable.Fixup

/-- A place that a chain patches. -/
structure ChainLink where
  source : Int
  target : Int
  /-- The word stored at the place. -/
  value : Nat
  deriving DecidableEq, Repr

namespace ChainLink

/-- The offset of the next place. -/
def next (link : ChainLink) : Nat := link.value / 0x100000

/-- Whether the chain ends here. -/
def isLast (link : ChainLink) : Bool := link.next = 0xFFF || link.next = link.source

end ChainLink

/-- The word at an offset of a page, if it lies in the page. -/
def pageWord? (order : ByteOrder) (data : List UInt8) (offset : Int) : Option Nat :=
  if offset < 0 then none
  else
    let bytes := (data.drop offset.toNat).take 4
    if bytes.length = 4 then some (order.word bytes) else none

/-- Follows a chain from an offset through at most `left` more links; `links` holds those behind it,
the last one first. -/
def walkChain (order : ByteOrder) (data : List UInt8) (base : Int) (limit : Int) :
    Nat → Int → List ChainLink → Except ChainFault (List ChainLink)
  | 0, _, _ => .error (.tooLong limit)
  | left + 1, offset, links =>
    match pageWord? order data offset with
    | none => .error (.outside offset)
    | some value =>
      let link : ChainLink := ⟨offset, base + value % 0x100000, value⟩
      if link.isLast then .ok (link :: links).reverse
      else walkChain order data base limit left link.next (link :: links)

/-- The greatest number of links on a page. -/
def maxLinks (pageSize : Int) : Int := max (pageSize / 4) 1

/-- The upper bits that the targets of a chain share with its head. -/
def chainBase (head : Record) : Int :=
  head.target.offset?.getD 0 / 0x100000 * 0x100000

/-- The links of the chain that a record is the head of. -/
def resolveChain (order : ByteOrder) (head : Record) (data : List UInt8) (pageSize page : Int) :
    Except Error (List ChainLink) :=
  if !head.form.isChained then .error .notChainHead
  else
    match head.offsets with
    | [] => .error .noSourceOffset
    | start :: _ =>
      let limit := maxLinks pageSize
      match walkChain order data (chainBase head) limit limit.toNat start [] with
      | .ok links => .ok links
      | .error fault => .error (.chainOverflow ⟨fault, page, start⟩)

end LinearExecutable.Fixup
