import LinearExecutable.Document.Fault
import LinearExecutable.Document.Place
import LinearExecutable.Document.Scalar

/-!
# Names, tags and directives

An anchor gives a node a name, and an alias stands for the node of its name. A tag is a handle and a
suffix, or a whole name between angle brackets. Directives stand in front of a document; they name
the edition of the notation and what the handles of tags stand for.
-/

namespace LinearExecutable.Document

/-! ## Anchors and aliases -/

/-- The characters of the names of anchors. -/
def isNameChar (c : Char) : Bool :=
  let n := c.toNat
  !",[]\x7b\x7d".toList.contains c &&
    ((0x21 ≤ n && n ≤ 0x7e) || (0xa0 ≤ n && n ≠ 0xfeff && n ≠ 0xfffe && n ≠ 0xffff))

/-- The name behind an indicator, and the place behind it. -/
def nameAt (p : Place) : Except ReadFault (List Char × Place) :=
  let (name, place) := p.next.span isNameChar
  let isClear := endsToken place.rest || endsWord place.rest ||
    place.rest.head?.any "?:,[]\x7b\x7d%@\x60".toList.contains
  if name.isEmpty || !isClear then .error .malformed else .ok (name, place)

/-! ## Tags -/

/-- A tag as it is written. -/
structure WrittenTag where
  handle? : Option (List Char)
  suffix : List Char
  deriving DecidableEq, Repr

/-- Letters, digits, dashes and underscores. -/
def isWordChar (c : Char) : Bool := c.isAlphanum || c = '-' || c = '_'

/-- The characters of the suffixes of tags. -/
def isSuffixChar (e : Edition) (c : Char) : Bool :=
  c.isAlphanum || "-;/?:@&=+$,_.!~*'()[]%".toList.contains c || (e.isLater && c = '#')

/-- Whether every percent sign has two hexadecimal digits behind it. -/
def hasWholeEscapes : List Char → Bool
  | [] => true
  | '%' :: a :: b :: rest =>
    let isHex (c : Char) := c.toNat < 0x80 && (digitValue? c).isSome
    isHex a && isHex b && hasWholeEscapes rest
  | c :: rest => c ≠ '%' && hasWholeEscapes rest

/-- The suffix of a tag at a place, and the place behind it. -/
def suffixAt (e : Edition) (p : Place) : Except ReadFault (List Char × Place) :=
  let (suffix, place) := p.span (isSuffixChar e)
  if suffix.isEmpty || !hasWholeEscapes suffix then .error .malformed else .ok (suffix, place)

/-- The handle of a tag at a place, and the place behind it: an exclamation mark, or a word between
two of them. -/
def handleAt (p : Place) : Except ReadFault (List Char × Place) :=
  match p.rest with
  | '!' :: ' ' :: _ => .ok (['!'], p.next)
  | '!' :: _ =>
    let (word, place) := p.next.span isWordChar
    if place.rest.head? = some '!' then .ok ('!' :: word ++ ['!'], place.next)
    else .error .malformed
  | _ => .error .malformed

/-- The tag at a place, and the place behind it. -/
def tagAt (e : Edition) (p : Place) : Except ReadFault (WrittenTag × Place) := do
  let (short, p) := if p.next.rest.head? = some '!' then (['!', '!'], p.next) else (['!'], p)
  let (tag, place) ←
    match p.next.rest with
    | '<' :: _ => do
      let (suffix, place) ← suffixAt e (p.forward 2)
      if place.rest.head? = some '>' then pure (⟨none, suffix⟩, place.next) else throw .malformed
    | rest =>
      if endsToken rest then pure (⟨none, short⟩, p.next)
      else if (rest.takeWhile fun c => !(c = ' ' || isBreak c)).contains '!' then do
        let (handle, place) ← handleAt p
        let (suffix, place) ← suffixAt e place
        pure (⟨some handle, suffix⟩, place)
      else do
        let (suffix, place) ← suffixAt e p.next
        pure (⟨some short, suffix⟩, place)
  if endsWord place.rest then return (tag, place) else throw .malformed

/-- Text with the characters that escapes stand for. -/
def unescaped : List Char → List Char
  | '%' :: a :: b :: rest =>
    Char.ofNat ((digitValue? a).getD 0 * 16 + (digitValue? b).getD 0) :: unescaped rest
  | c :: rest => c :: unescaped rest
  | [] => []

/-- What the handles of tags stand for. -/
abbrev Handles := List (List Char × List Char)

/-- The handles that every document has. -/
def Handles.standard : Handles := [(['!'], ['!']), (['!', '!'], coreHandle.toList)]

/-- The tag that a written one stands for, if its handle is known. -/
def WrittenTag.resolve? (handles : Handles) (t : WrittenTag) : Option Tag :=
  match t.handle? with
  | none => some ⟨String.ofList (unescaped t.suffix), false⟩
  | some handle =>
    (handles.lookup handle).map fun start => ⟨String.ofList (start ++ unescaped t.suffix), true⟩

/-! ## Directives -/

inductive Directive where
  | edition (e : Edition)
  | handle (handle start : List Char)
  /-- A directive without a meaning. -/
  | other
  deriving DecidableEq, Repr

/-- The number at a place, and the place behind it. -/
def numberAt (p : Place) : Except ReadFault (Nat × Place) :=
  let (digits, place) := p.span Char.isDigit
  if digits.isEmpty then .error .malformed
  else if Text.maxDigits < digits.length then .error (.tooManyDigits digits.length)
  else .ok ((spelled? 10 0 digits).getD 0, place)

/-- What stands behind the name of a directive. -/
def directiveValue (e : Edition) (name : List Char) (p : Place) :
    Except ReadFault (Directive × Place) := do
  let blank (c : Char) : Bool := c = ' '
  if name = ['Y', 'A', 'M', 'L'] then
    let (major, p) ← numberAt (p.skipWhile blank)
    if p.rest.head? ≠ some '.' then throw .malformed
    let (minor, p) ← numberAt p.next
    if endsWord p.rest then return (.edition ⟨major, minor⟩, p) else throw .malformed
  else if name = ['T', 'A', 'G'] then
    let (handle, p) ← handleAt (p.skipWhile blank)
    if p.rest.head? ≠ some ' ' then throw .malformed
    let (start, p) ← suffixAt e (p.skipWhile blank)
    if endsWord p.rest then return (.handle handle start, p) else throw .malformed
  else return (.other, p.skipWhile fun c => !endsLine c)

/-- The directive whose indicator stands at a place, and the place behind its line. -/
def directiveAt (e : Edition) (p : Place) : Except ReadFault (Directive × Place) := do
  let (name, p) := p.next.span fun c => isWordChar c || c = ':' || c = '.'
  if name.isEmpty || !endsWord p.rest then throw .malformed
  let (directive, p) ← directiveValue e name p
  let p := p.skipWhile (· = ' ')
  let p := if p.rest.head? = some '#' then p.skipWhile (fun c => !endsLine c) else p
  if p.rest.isEmpty || p.rest.head?.any endsLine then return (directive, p.skipBreak)
  else throw .malformed

end LinearExecutable.Document
