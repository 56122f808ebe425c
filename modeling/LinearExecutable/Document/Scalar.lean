import LinearExecutable.Document.Basic

/-!
# What a scalar stands for

A scalar without quotes and without a tag is null, a truth value, a number, a date, or else a text;
its form decides. A scalar with a tag stands for what the tag says, if its text has the form for
that. Underscores in numbers are ignored.
-/

namespace LinearExecutable.Document

/-! ## Scalars as they stand in a text -/

/-- The edition of the notation that a text is written in. -/
structure Edition where
  major : Nat
  minor : Nat
  deriving DecidableEq, Repr

namespace Edition

/-- The edition of a text that does not name one. -/
def current : Edition := ⟨1, 2⟩

/-- The edition before: more words are truth values, and a leading zero makes a number octal. -/
def former : Edition := ⟨1, 1⟩

/-- Whether an edition is later than the former one. -/
def isLater (e : Edition) : Bool := former.minor < e.minor

end Edition

/-- The characters of a scalar; escapes may name code points that are no characters. -/
inductive Wording where
  | sound (cs : List Char)
  | broken (codes : List Nat)
  deriving DecidableEq, Repr

namespace Wording

def ofCodes (codes : List Nat) : Wording :=
  if codes.all fun n => n.isValidChar then .sound (codes.map Char.ofNat) else .broken codes

/-- The characters of a scalar, with a mark in the place of what is no character. -/
def chars : Wording → List Char
  | .sound cs => cs
  | .broken codes => codes.map fun n => if n.isValidChar then Char.ofNat n else '\ufffd'

/-- The text of a scalar. -/
def text : Wording → Document
  | .sound cs => .text (String.ofList cs)
  | .broken codes => .brokenText codes

end Wording

/-- A tag: its full name, and whether it is written with a handle in front. -/
structure Tag where
  name : String
  isShort : Bool
  deriving DecidableEq, Repr

/-- What the names of the tags of this notation start with. -/
def coreHandle : String := "tag:yaml.org,2002:"

/-- A tag that leaves it to the form of a scalar what it stands for. -/
def Tag.isOpen (t : Tag) : Bool := t.name = "!"

/-- The name of a tag of this notation, without what they all start with. -/
def Tag.coreName? (t : Tag) : Option String :=
  if coreHandle.isPrefixOf t.name then
    some (String.ofList (t.name.toList.drop coreHandle.length))
  else none

/-! ## Literals -/

/-- A sign, true for minus, and what follows it. -/
def splitSign : List Char → Bool × List Char
  | '-' :: rest => (true, rest)
  | '+' :: rest => (false, rest)
  | cs => (false, cs)

def withSign (negative : Bool) (n : Nat) : Int :=
  if negative then -(n : Int) else n

/-- What a digit or a letter is worth. -/
def digitValue? (c : Char) : Option Nat :=
  if 'a' ≤ c && c ≤ 'f' then some (c.toNat - 87)
  else if 'A' ≤ c && c ≤ 'F' then some (c.toNat - 55)
  else Text.digit? c

/-- The number spelled by digits of a base, the first ones given as `acc`. -/
def spelled? (base acc : Nat) : List Char → Option Nat
  | [] => some acc
  | c :: rest =>
    match digitValue? c with
    | some d => if d < base then spelled? base (acc * base + d) rest else none
    | none => none

/-- The letter behind a zero that marks a base. -/
def markerOf (base : Nat) : Option Char :=
  if base = 2 then some 'b' else if base = 8 then some 'o' else if base = 16 then some 'x' else none

/-- Digits without the marker of their base. -/
def dropMarker (base : Nat) : List Char → List Char
  | '0' :: c :: rest => if markerOf base = some c.toLower then rest else '0' :: c :: rest
  | cs => cs

/-- The whole number of a text, with blanks around it, a sign and a marker if there are any. -/
def wholeLiteral (base : Nat) (cs : List Char) : Except ReadFault Int :=
  let (negative, body) := splitSign (Text.trim Text.isSpace cs)
  let digits := dropMarker base body
  let isDigit (c : Char) : Bool := (digitValue? c).any (· < base)
  if base = 10 && Text.maxDigits < digits.length && digits.all isDigit then
    .error (.tooManyDigits digits.length)
  else
    match digits, spelled? base 0 digits with
    | _ :: _, some n => .ok (withSign negative n)
    | _, _ => .error (.unreadableInt base (String.ofList cs))

/-- A decimal digit of any script as one from `'0'` to `'9'`; other characters stay. -/
def commonDigit (c : Char) : Char :=
  match Text.digit? c with
  | some d => Char.ofNat (48 + d)
  | none => c

/-- The number of a text with a point or an exponent, with blanks around it and a sign if there are
any; lower case. -/
def floatLiteral (negative : Bool) (cs : List Char) : Except ReadFault Binary64 :=
  let (minus, body) := splitSign ((Text.trim Text.isSpace cs).map commonDigit)
  if ["inf", "infinity"].contains (String.ofList body) then .ok (.infinite (negative != minus))
  else if String.ofList body = "nan" then .ok .notANumber
  else
    match Binary64.ofNumeral? (negative != minus) body with
    | some x => .ok x
    | none => .error (.unreadableFloat (String.ofList cs))

/-! ## Numbers -/

/-- The parts of a text between separators. -/
def partsAt (separator : Char) : List Char → List (List Char)
  | [] => [[]]
  | c :: rest =>
    match partsAt separator rest with
    | part :: parts => if c = separator then [] :: part :: parts else (c :: part) :: parts
    | [] => [[c]]

/-- The whole number in a scalar: decimal, or binary, octal or hexadecimal with a marker. In the
former edition a leading zero is the marker of octal, and parts between colons are of base sixty. -/
def wholeOf (e : Edition) (cs : List Char) : Except ReadFault Int :=
  let bare := cs.filter (· ≠ '_')
  if bare.isEmpty then .error .noDigits
  else
    let (negative, body) := splitSign bare
    let signed (i : Int) : Int := if negative then -i else i
    let marked (base : Nat) (digits : List Char) : Except ReadFault Int :=
      if digits.isEmpty && e.isLater then .error .noDigits
      else (wholeLiteral base digits).map signed
    match body with
    | ['0'] => .ok 0
    | '0' :: 'b' :: digits => marked 2 digits
    | '0' :: 'x' :: digits => marked 16 digits
    | '0' :: 'o' :: digits => marked 8 digits
    | [] => .error .noDigits
    | c :: _ =>
      if e ≠ .current && c = '0' then (wholeLiteral 8 body).map signed
      else if e ≠ .current && body.contains ':' then do
        let parts ← (partsAt ':' body).mapM (wholeLiteral 10)
        return signed (parts.foldl (fun sum part => sum * 60 + part) 0)
      else (wholeLiteral 10 body).map signed

/-- The exponent behind a letter that stands exactly once in a number. -/
def exponentAt (letter : Char) (cs : List Char) : Option (List Char) :=
  match partsAt letter cs with
  | [_, exponent] => some exponent
  | _ => none

/-- The number with a point or an exponent in a scalar. -/
def floatOf (cs : List Char) : Except ReadFault Binary64 :=
  let bare := (cs.filter (· ≠ '_')).map Char.toLower
  if bare.isEmpty then .error .noDigits
  else
    let (negative, body) := splitSign bare
    if String.ofList body = ".inf" then .ok (.infinite negative)
    else if String.ofList body = ".nan" then .ok .notANumber
    else if body.contains 'e' then
      match exponentAt 'e' cs <|> exponentAt 'E' cs with
      | none => .error (.unclearExponent (1 < cs.count 'E'))
      | some [] => .error .noDigits
      | some _ => floatLiteral negative body
    else floatLiteral negative body

/-! ## The forms of scalars without quotes -/

/-- A decimal digit or an underscore. -/
def isDigitOrGap (c : Char) : Bool := c.isDigit || c = '_'

def isDigitRun (cs : List Char) : Bool := !cs.isEmpty && cs.all Char.isDigit

/-- At least one digit of a base; underscores count as digits. -/
def isRunIn (base : Nat) (cs : List Char) : Bool :=
  !cs.isEmpty && cs.all fun c =>
    c = '_' || (c.toNat < 0x80 && (digitValue? c).any fun d => decide (d < base))

/-- An exponent: `e`, a sign, which may be required, and digits. -/
def isExponent (needsSign : Bool) : List Char → Bool
  | e :: rest =>
    (e = 'e' || e = 'E') &&
      match rest with
      | '+' :: digits => isDigitRun digits
      | '-' :: digits => isDigitRun digits
      | digits => !needsSign && isDigitRun digits
  | [] => false

/-- The form of a number with a point or an exponent, its sign aside. -/
def isFloatForm : List Char → Bool
  | '.' :: rest =>
    let tail := rest.dropWhile isDigitOrGap
    (rest.head?.any isDigitOrGap) && (tail.isEmpty || isExponent true tail)
  | c :: rest =>
    c.isDigit &&
      match rest.dropWhile isDigitOrGap with
      | '.' :: fraction =>
        let tail := fraction.dropWhile isDigitOrGap
        tail.isEmpty || isExponent false tail
      | tail => isExponent false tail
  | [] => false

/-- Whether a scalar is a number with a point or an exponent, or the name of one that is not
finite. In the former edition no sign stands in front of a point. -/
def isFloat (e : Edition) (cs : List Char) : Bool :=
  let body := (splitSign cs).2
  [".inf", ".Inf", ".INF"].contains (String.ofList body) ||
    [".nan", ".NaN", ".NAN"].contains (String.ofList cs) ||
    (isFloatForm body && (e.isLater || body = cs || body.head? ≠ some '.'))

/-- One or two digits of base sixty. -/
def isSixtieth : List Char → Bool
  | [c] => c.isDigit
  | [c, d] => '0' ≤ c && c ≤ '5' && d.isDigit
  | _ => false

/-- Digits that do not start with a zero, and further ones of base sixty behind colons. -/
def isSixtyForm (cs : List Char) : Bool :=
  match partsAt ':' cs with
  | first :: second :: parts =>
    first.head?.any (fun c => '1' ≤ c && c ≤ '9') && first.all isDigitOrGap &&
      (second :: parts).all isSixtieth
  | _ => false

/-- The form of a whole number, its sign aside. -/
def isWholeForm (e : Edition) (body : List Char) : Bool :=
  match body with
  | '0' :: 'b' :: digits => isRunIn 2 digits
  | '0' :: 'x' :: digits => isRunIn 16 digits
  | '0' :: 'o' :: digits => e.isLater && isRunIn 8 digits
  | _ =>
    if e.isLater then isRunIn 10 body
    else
      isRunIn 8 body || isSixtyForm body ||
        (body.head?.any (fun c => '1' ≤ c && c ≤ '9') && body.all isDigitOrGap)

/-- Whether a scalar can be a number: it starts with a digit, a sign or a point. -/
def startsNumber : List Char → Bool
  | c :: _ => c.isDigit || c = '+' || c = '-' || c = '.'
  | [] => false

/-- Whether a scalar is a whole number. -/
def isWhole (e : Edition) (cs : List Char) : Bool :=
  cs.head? ≠ some '.' && isWholeForm e (splitSign cs).2

/-! ## Truth values -/

/-- The words that are truth values without a tag. -/
def isTruthForm (e : Edition) (word : String) : Bool :=
  ["true", "True", "TRUE", "false", "False", "FALSE"].contains word ||
    (!e.isLater && ["y", "Y", "yes", "Yes", "YES", "n", "N", "no", "No", "NO", "on", "On", "ON",
      "off", "Off", "OFF"].contains word)

/-- The truth value of a word, in any case. -/
def truthOfWord (word : String) : Except ReadFault Bool :=
  let word := word.map Char.toLower
  if ["y", "yes", "on", "true"].contains word then .ok true
  else if ["n", "no", "off", "false"].contains word then .ok false
  else .error (.unknownTruth word)

/-! ## Bytes -/

/-- What a digit of base sixty-four is worth. -/
def sixBits? (c : Char) : Option Nat :=
  if 'A' ≤ c && c ≤ 'Z' then some (c.toNat - 65)
  else if 'a' ≤ c && c ≤ 'z' then some (c.toNat - 71)
  else if c.isDigit then some (c.toNat + 4)
  else if c = '+' then some 62
  else if c = '/' then some 63
  else none

/-- The bytes spelled by digits of base sixty-four, four of which are three bytes. `place` counts
the digits of a group so far, `left` are their bits that are not yet in a byte, and `pads` counts
the equals signs since the last digit; other characters are ignored. -/
def bytesFrom? (place left pads : Nat) : List Char → Option (List UInt8)
  | [] => if place = 0 then some [] else none
  | c :: rest =>
    if c = '=' then
      if 2 ≤ place && 4 ≤ place + pads + 1 then some [] else bytesFrom? place left (pads + 1) rest
    else
      match sixBits? c, place with
      | none, _ => bytesFrom? place left pads rest
      | some d, 0 => bytesFrom? 1 d 0 rest
      | some d, 1 => (bytesFrom? 2 (d % 16) 0 rest).map (UInt8.ofNat (left * 4 + d / 16) :: ·)
      | some d, 2 => (bytesFrom? 3 (d % 4) 0 rest).map (UInt8.ofNat (left * 16 + d / 4) :: ·)
      | some d, _ => (bytesFrom? 0 0 0 rest).map (UInt8.ofNat (left * 64 + d) :: ·)

/-! ## Documents -/

/-- What a scalar without quotes and without a tag stands for. -/
def ofPlain (e : Edition) (cs : List Char) : Except ReadFault Document :=
  let s := String.ofList cs
  if ["", "~", "null", "Null", "NULL"].contains s then .ok .null
  else if isTruthForm e s then (truthOfWord s).map .bool
  else if ["<<", "="].contains s then .ok (.tagged s)
  else if startsNumber cs then
    if isFloat e cs then (floatOf cs).map .float
    else if isWhole e cs then (wholeOf e cs).map .int
    else
      match Timestamp.parts? cs with
      | some parts =>
        if parts.isLong || parts.clock?.isSome then (Timestamp.ofParts parts).map .time
        else .ok (.text s)
      | none => .ok (.text s)
  else .ok (.text s)

/-- The same for a scalar of an edition that may be unknown. -/
def ofOpen (e : Edition) (cs : List Char) : Except ReadFault Document :=
  if e = .current || e = .former then ofPlain e cs
  else .error (.unknownEdition e.major e.minor)

/-- What a scalar with a tag stands for. A text with a handle in its tag keeps the tag, and what it
stands for is not known. -/
def ofTagged (e : Edition) (tag : Tag) (w : Wording) : Except ReadFault Document :=
  let cs := w.chars
  let unknown : Document := .tagged (String.ofList cs)
  match tag.coreName? with
  | some "null" => .ok .null
  | some "bool" => (truthOfWord (String.ofList cs)).map .bool
  | some "int" => (wholeOf e cs).map .int
  | some "float" => (floatOf cs).map .float
  | some "str" => .ok (if tag.isShort then unknown else w.text)
  | some "timestamp" =>
    match Timestamp.parts? cs with
    | some parts => (Timestamp.ofParts parts).map .time
    | none => .error .malformed
  | some "binary" =>
    match if cs.all (fun c => c.toNat < 0x80) then bytesFrom? 0 0 0 cs else none with
    | some bs => .ok (.bytes bs)
    | none => .error .malformed
  | some "seq" | some "map" | some "set" | some "omap" | some "pairs" => .error .malformed
  | _ => .ok unknown

end LinearExecutable.Document
