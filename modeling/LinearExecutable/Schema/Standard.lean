import LinearExecutable.Document.Text
import LinearExecutable.Schema

/-!
# The library that is used

Configurations are read by the rules for documents and lax rules for values: a truth value may be a
word or a number, a count may be a text. Writing is not lax: there is one text for given values.
-/

namespace LinearExecutable

namespace Schema

/-! ## Reading truth values -/

/-- The truth value of a word, in any case. -/
def truthOfWord (word : String) : Except IssueKind Bool :=
  let word := word.map Char.toLower
  if ["1", "on", "t", "true", "y", "yes"].contains word then .ok true
  else if ["0", "off", "f", "false", "n", "no"].contains word then .ok false
  else .error .unreadableTruthValue

/-- The truth value of a whole number, which is zero or one. -/
def truthOfNumber (i : Int) : Except IssueKind Bool :=
  if i = 0 then .ok false else if i = 1 then .ok true else .error .unreadableTruthValue

/-- Whether a whole number has at most 64 bits. -/
def hasWordSize (i : Int) : Bool := -0x8000000000000000 ≤ i && i < 0x8000000000000000

/-- Whether a whole number with a point counts as one that has at most 64 bits: the least of them
does not. -/
def isWithinWord (i : Int) : Bool := -0x8000000000000000 < i && i < 0x8000000000000000

/-- The text that bytes spell. -/
def textOfBytes? (bytes : List UInt8) : Option String := String.fromUTF8? ⟨bytes.toArray⟩

/-- The truth value of a part of a configuration. -/
def truthOf : Document → Except IssueKind Bool
  | .bool b => .ok b
  | .int i => if hasWordSize i then truthOfNumber i else .error .notATruthValue
  | .float x =>
    match x.toInt? with
    | some i => if isWithinWord i then truthOfNumber i else .error .notATruthValue
    | none => .error .notATruthValue
  | .text s => truthOfWord s
  | .brokenText _ => .error .brokenText
  | .bytes bytes =>
    match textOfBytes? bytes with
    | some s => truthOfWord s
    | none => .error .unreadableTruthValue
  | .null | .time _ | .tagged _ | .list _ | .mapping _ => .error .notATruthValue

/-! ## Reading counts -/

/-- A minus, true if there is one, and what follows it. -/
def splitMinus : List Char → Bool × List Char
  | '-' :: rest => (true, rest)
  | cs => (false, cs)

/-- Whether a numeral has more digits than can be read. Digits behind a zero at its start are not
counted. -/
def isOversized (cs : List Char) : Bool :=
  let digits := (splitMinus cs).2
  digits.head? ≠ some '0' &&
    Text.maxDigits < cs.length - digits.length + (digits.takeWhile Char.isDigit).length

/-- The whole number of a numeral: digits, the first of which is zero only if there is no other, and
possibly a minus. -/
def strictCount? (cs : List Char) : Option Int :=
  let (negative, digits) := splitMinus cs
  if isOversized cs || (digits.head? = some '0' && digits ≠ ['0']) then none
  else if digits.all Char.isDigit then
    (Text.digits? Text.asciiDigit? digits).map (Document.withSign negative)
  else none

/-- What remains of a number whose zeros and underscores at the start are dropped, the first of them
already. A zero stays in front of a point, and at the end. -/
def withoutZeros? : List Char → Option (List Char)
  | [] => none
  | [c] => if c.isDigit || c = '_' || c = '-' then some [c] else none
  | c :: d :: rest =>
    if ('1' ≤ c && c ≤ '9') || c = '-' then some (c :: d :: rest)
    else if c = '0' || c = '_' then
      if d = '.' then some (c :: d :: rest) else withoutZeros? (d :: rest)
    else none

/-- A number without its point and the zeros behind it, of which there is at least one. -/
def withoutZeroFraction (cs : List Char) : List Char :=
  match cs.dropWhile (· ≠ '.') with
  | '.' :: fraction =>
    if !fraction.isEmpty && fraction.all (· = '0') then cs.takeWhile (· ≠ '.') else cs
  | _ => cs

/-- Whether two underscores stand side by side. -/
def hasWideGap : List Char → Bool
  | '_' :: '_' :: _ => true
  | _ :: rest => hasWideGap rest
  | [] => false

/-- A number without its underscores; they stand alone, and not at its ends. -/
def withoutGaps (cs : List Char) : List Char :=
  if cs.head? = some '_' || cs.getLast? = some '_' || hasWideGap cs then cs
  else cs.filter (· ≠ '_')

/-- A number without what a numeral does not have: blanks around it, a plus, zeros at its start, a
point with zeros, and underscores. -/
def simplified? (cs : List Char) : Option (List Char) :=
  let body? := match Text.trim Text.isSpace cs with
    | '+' :: '-' :: _ => none
    | '+' :: rest => some rest
    | rest => some rest
  body?.bind fun body =>
    let number? := if body.head? = some '_' then none else withoutZeros? body
    number?.map fun number => withoutGaps (withoutZeroFraction number)

/-- The whole number in a text. -/
def countOfChars (cs : List Char) : Except IssueKind Int :=
  if isOversized cs then .error .oversizedCount
  else
    match strictCount? cs <|> (simplified? cs).bind strictCount? with
    | some i => .ok i
    | none => .error .unreadableCount

/-- The whole number that a number with a point is. -/
def countOfFloat (x : Binary64) : Except IssueKind Int :=
  match x.toInt? with
  | some i => if isWithinWord i then .ok i else .error .oversizedCount
  | none => .error (if x.isFinite then .fractionalCount else .infiniteCount)

/-- The whole number in a part of a configuration. -/
def wholeOf : Document → Except IssueKind Int
  | .int i => .ok i
  | .bool b => .ok (if b then 1 else 0)
  | .float x => countOfFloat x
  | .text s => countOfChars s.toList
  | .brokenText _ => .error .brokenText
  | .bytes bytes =>
    match textOfBytes? bytes with
    | some s => countOfChars s.toList
    | none => .error .unreadableCount
  | .null | .time _ | .tagged _ | .list _ | .mapping _ => .error .notACount

/-- A number that is not too small. -/
def atLeast (least : Nat) (i : Int) : Except IssueKind (AtLeast least) :=
  if h : least ≤ i then .ok ⟨i.toNat, by omega⟩ else .error .countBelowLeast

/-- The count in a part of a configuration; null is none. -/
def countOf (least : Nat) : Document → Except IssueKind (Option (AtLeast least))
  | .null => .ok none
  | doc => (wholeOf doc).bind fun i => (atLeast least i).map some

/-! ## Reading documents -/

/-- The value of a kind in a part of a configuration. -/
def Kind.valueOf : (kind : Kind) → Document → Except IssueKind kind.Value
  | .truth, doc => truthOf doc
  | .count least, doc => countOf least doc

/-- The value of an item in the entries of a mapping, which is under a key with the given path. -/
def Item.valueIn (item : Item) (path : List String) (entries : List (Document × Document)) :
    Except Issue item.kind.Value :=
  match item.keys.findSome? fun key => (Document.field? entries key).map (key, ·) with
  | none => .ok item.unset
  | some (key, doc) => (item.kind.valueOf doc).mapError (⟨path ++ [key], ·⟩)

/-- The values of items in the entries of a mapping, or all that is wrong with them; entries with
other keys do not count. -/
def valuesIn (path : List String) (entries : List (Document × Document)) :
    (items : List Item) → Except (List Issue) (Values items)
  | [] => .ok ()
  | item :: items =>
    match item.valueIn path entries, valuesIn path entries items with
    | .ok value, .ok values => .ok (value, values)
    | .ok _, .error issues => .error issues
    | .error issue, .ok _ => .error [issue]
    | .error issue, .error issues => .error (issue :: issues)

/-- The values in a document: a mapping with a mapping under the key of the schema. -/
def valuesOf (s : Schema) : Document → Except (List Issue) (Values s.items)
  | .mapping entries =>
    match Document.field? entries s.key with
    | none => .ok s.unset
    | some (.mapping parts) => valuesIn [s.key] parts s.items
    | some _ => .error [⟨[s.key], .notAMapping⟩]
  | _ => .error [⟨[], .notAMapping⟩]

end Schema

/-- Documents are read and written as they are here. -/
def Library.standard : Library where
  load := Document.ofText
  validate := Schema.valuesOf
  represent s values := Document.nested s.key (Schema.fields s.items values)
  dump := Document.written

end LinearExecutable
