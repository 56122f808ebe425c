/-!
# Numerals in messages and listings

Numbers are written in decimal or in lower-case hexadecimal; a minus sign stands before the digits
and counts as one place when a numeral is filled up with zeros.
-/

namespace LinearExecutable.Text

/-- The hexadecimal digits of a natural number, without leading zeros. -/
def hexDigits (n : Nat) : String :=
  String.ofList (Nat.toDigits 16 n)

/-- A hexadecimal numeral; a minus sign stands before the digits. -/
def hex (i : Int) : String :=
  if i < 0 then "-" ++ hexDigits i.natAbs else hexDigits i.natAbs

/-- A hexadecimal numeral filled up with zeros, after the sign, to at least `width` places. -/
def hexPadded (width : Nat) (i : Int) : String :=
  let digits := hexDigits i.natAbs
  let sign := if i < 0 then "-" else ""
  sign ++ "".pushn '0' (width - sign.length - digits.length) ++ digits

/-- Text filled up with blanks on the right to at least `width` characters. -/
def padRight (width : Nat) (text : String) : String :=
  text.pushn ' ' (width - text.length)

/-- Text filled up with blanks on the left to at least `width` characters. -/
def padLeft (width : Nat) (text : String) : String :=
  "".pushn ' ' (width - text.length) ++ text

end LinearExecutable.Text
