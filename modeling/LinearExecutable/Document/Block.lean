import LinearExecutable.Document.Basic

/-!
# Documents as lines

A mapping of scalars in a mapping is written as lines: the key of the mapping, and below it a line
for each field, with its name, a colon, and a word for its value or nothing. Numerals of base ten
have a greatest length when they are written, as they have in texts that are read.
-/

namespace LinearExecutable

namespace Document

/-! ## Lines -/

/-- The value on a line: none, a word beside the key, or a word on a line of its own. -/
inductive LineValue where
  | missing
  | beside (word : List Char)
  | below (word : List Char)

namespace LineValue

def word? : LineValue → Option (List Char)
  | .missing => none
  | .beside word | .below word => some word

/-- The characters of the value of a key in a column. -/
def chars (column : Nat) : LineValue → List Char
  | .missing => []
  | .beside word => ' ' :: word
  | .below word => ' ' :: '\n' :: (List.replicate (column + 2) ' ' ++ word)

end LineValue

/-- A key and its value, as they are written in a mapping outside brackets. -/
structure Line where
  key : List Char
  value : LineValue

def Line.chars (column : Nat) (l : Line) : List Char :=
  l.key ++ ':' :: (l.value.chars column ++ ['\n'])

/-- The text of lines in a column. -/
def linesText (column : Nat) (lines : List Line) : List Char :=
  lines.flatMap fun l => List.replicate column ' ' ++ l.chars column

/-- The text of a mapping with one entry, whose value is a mapping with some lines. -/
def nestedText (column : Nat) (key : List Char) (lines : List Line) : List Char :=
  (Line.mk key .missing).chars 0 ++ linesText column lines

/-! ## Writing -/

/-- Why a document is not written. -/
inductive WriteFault where
  | tooManyDigits
  /-- The document is no mapping of scalars in a mapping. -/
  | otherDocument
  deriving DecidableEq, Repr

def WriteFault.message : WriteFault → String
  | tooManyDigits =>
    "Exceeds the limit (4300 digits) for integer string conversion; " ++
      "use sys.set_int_max_str_digits() to increase the limit"
  | otherDocument => "not a mapping of scalars in a mapping"

/-- The word for a truth value. -/
def truthWord (b : Bool) : List Char := (if b then "true" else "false").toList

/-- Whether a number has at most as many digits as numerals can have. -/
def hasNumeral (n : Nat) : Bool := n < Nat.pow 10 Text.maxDigits

/-- The word for a scalar; null has none. -/
def wordOf : Document → Except WriteFault (Option (List Char))
  | .null => .ok none
  | .bool b => .ok (some (truthWord b))
  | .int (.ofNat n) =>
    if hasNumeral n then .ok (some (Nat.toDigits 10 n)) else .error .tooManyDigits
  | _ => .error .otherDocument

/-- The greatest width of a line, if it can be kept. -/
def lineWidth : Nat := 80

/-- The line for a name and a word in a column. A word that does not fit on the line gets a line of
its own. -/
def lineOf (column : Nat) (name : String) (word? : Option (List Char)) : Line where
  key := name.toList
  value :=
    match word? with
    | none => .missing
    | some word =>
      if lineWidth < column + name.length + 2 + word.length then .below word else .beside word

/-- The column of the fields of a mapping in a mapping. -/
def fieldColumn : Nat := 2

/-- The line for an entry whose key is a name. Names stand without quotes. -/
def entryLine : Document × Document → Except WriteFault Line
  | (.text name, doc) => (wordOf doc).map (lineOf fieldColumn name)
  | _ => .error .otherDocument

/-- The text of a document. -/
def written : Document → Except WriteFault String
  | .mapping [(.text name, .mapping (entry :: entries))] => do
    let lines ← (entry :: entries).mapM entryLine
    return String.ofList (nestedText fieldColumn name.toList lines)
  | _ => .error .otherDocument

end Document

end LinearExecutable
