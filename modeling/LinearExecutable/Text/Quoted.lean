import LinearExecutable.Text.Numeral
import LinearExecutable.Text.Printable

/-!
# Quoted text

Messages quote the text they complain about. Single quotes are used unless the text holds a single
quote and no double quote; the quote in use and the backslash are escaped, and so is every character
without a printed form.
-/

namespace LinearExecutable.Text

/-- The quote that stands around a text. -/
def quoteFor (cs : List Char) : Char :=
  if cs.contains '\'' && !cs.contains '"' then '"' else '\''

/-- A numeral of exactly the width that an escape needs. -/
def escapeNumeral (letter : String) (width n : Nat) : String :=
  "\\" ++ letter ++ hexPadded width n

/-- One character inside quotes. -/
def quoteChar (quote c : Char) : String :=
  if c = quote || c = '\\' then "\\" ++ c.toString
  else if c = '\t' then "\\t"
  else if c = '\n' then "\\n"
  else if c = '\r' then "\\r"
  else if isPrintable c then c.toString
  else if c.toNat < 0x100 then escapeNumeral "x" 2 c.toNat
  else if c.toNat < 0x10000 then escapeNumeral "u" 4 c.toNat
  else escapeNumeral "U" 8 c.toNat

/-- A text between quotes, on one line and without unprintable characters. -/
def quoted (text : String) : String :=
  let cs := text.toList
  let quote := quoteFor cs
  quote.toString ++ String.join (cs.map (quoteChar quote)) ++ quote.toString

end LinearExecutable.Text
