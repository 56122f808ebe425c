import LinearExecutable.Document.Comment

/-!
# Why a text cannot be read

Most texts that cannot be read are no documents at all. Others are, but a scalar has the form of a
number or a date and is none, or the comments in it collide.
-/

namespace LinearExecutable.Document

/-- The parts of a date or time whose range is checked. -/
inductive TimeField where
  | year (n : Nat)
  | month
  | day
  | hour
  | minute
  | second
  deriving DecidableEq, Repr

/-- The message for a part of a date or time that is out of range. -/
def TimeField.message : TimeField → String
  | year n => s!"year {n} is out of range"
  | month => "month must be in 1..12"
  | day => "day is out of range for month"
  | hour => "hour must be in 0..23"
  | minute => "minute must be in 0..59"
  | second => "second must be in 0..59"

/-- Why no document comes out of a text. -/
inductive ReadFault where
  /-- The text is no document. -/
  | malformed
  /-- A whole number of base ten has too many digits. -/
  | tooManyDigits (count : Nat)
  /-- Nothing is left of a number without its sign, its marker and its underscores. -/
  | noDigits
  | unreadableInt (base : Nat) (text : String)
  | unreadableFloat (text : String)
  /-- A number has none or several of the letter in front of its exponent. -/
  | unclearExponent (several : Bool)
  /-- A word that is tagged as a truth value and is none. -/
  | unknownTruth (word : String)
  | timeRange (field : TimeField)
  /-- A point in time before the first year or behind the last one. -/
  | timeOverflow
  /-- An escape with a number that is no code point. -/
  | noCodePoint
  /-- An escape with a number that is far from being a code point. -/
  | hugeCodePoint
  /-- A token is handed a comment where it has one. -/
  | collision (moved kept : Remarks)
  /-- Something stands where there may be one of its kind and there is one. -/
  | doubled
  /-- A list, or a mapping, within a key. -/
  | listInKey
  | mappingInKey
  /-- A mapping that takes over the entries of one that it is a part of. -/
  | selfMerge
  /-- An edition of the notation that gives plain scalars no meaning. -/
  | unknownEdition (major minor : Nat)
  deriving DecidableEq, Repr

namespace ReadFault

def message : ReadFault → String
  | malformed => "not a document"
  | tooManyDigits count =>
    s!"Exceeds the limit (4300 digits) for integer string conversion: value has {count} digits; " ++
      "use sys.set_int_max_str_digits() to increase the limit"
  | noDigits => "string index out of range"
  | unreadableInt base text =>
    s!"invalid literal for int() with base {base}: {Text.quoted text}"
  | unreadableFloat text => s!"could not convert string to float: {Text.quoted text}"
  | unclearExponent several =>
    if several then "too many values to unpack (expected 2)"
    else "not enough values to unpack (expected 2, got 1)"
  | unknownTruth word => Text.quoted word
  | timeRange field => field.message
  | timeOverflow => "date value out of range"
  | noCodePoint => "chr() arg not in range(0x110000)"
  | hugeCodePoint => "Python int too large to convert to C int"
  | collision moved kept => s!"overlap in comment {moved.shown} {kept.shown}"
  | doubled => ""
  | listInKey => "unhashable type: 'CommentedSeq'"
  | mappingInKey => "unhashable type: 'CommentedMap'"
  | selfMerge => "'NoneType' object has no attribute 'add_referent'"
  | unknownEdition major minor => s!"({major}, {minor})"

end ReadFault

end LinearExecutable.Document
