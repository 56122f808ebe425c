/-!
# Decimal digits of any script and blanks

A count may be written with the decimal digits of any script and with blanks around it. Every
script's digits zero to nine follow one another, so a table of the zeros says which characters are
digits and what they are worth.
-/

namespace LinearExecutable.Text

/-- The code points of the zeros, one for each set of decimal digits. -/
def digitZeros : List Nat :=
  [0x30, 0x660, 0x6f0, 0x7c0, 0x966, 0x9e6, 0xa66, 0xae6, 0xb66, 0xbe6, 0xc66, 0xce6, 0xd66, 0xde6,
    0xe50, 0xed0, 0xf20, 0x1040, 0x1090, 0x17e0, 0x1810, 0x1946, 0x19d0, 0x1a80, 0x1a90, 0x1b50,
    0x1bb0, 0x1c40, 0x1c50, 0xa620, 0xa8d0, 0xa900, 0xa9d0, 0xa9f0, 0xaa50, 0xabf0, 0xff10, 0x104a0,
    0x10d30, 0x11066, 0x110f0, 0x11136, 0x111d0, 0x112f0, 0x11450, 0x114d0, 0x11650, 0x116c0,
    0x11730, 0x118e0, 0x11950, 0x11c50, 0x11d50, 0x11da0, 0x16a60, 0x16ac0, 0x16b50, 0x1d7ce,
    0x1d7d8, 0x1d7e2, 0x1d7ec, 0x1d7f6, 0x1e140, 0x1e2f0, 0x1e950, 0x1fbf0]

/-- What a decimal digit of any script is worth. -/
def digit? (c : Char) : Option Nat :=
  (digitZeros.find? fun first => first ≤ c.toNat && c.toNat < first + 10).map (c.toNat - ·)

/-- What a decimal digit from `'0'` to `'9'` is worth. -/
def asciiDigit? (c : Char) : Option Nat :=
  if c.isDigit then some (c.toNat - 48) else none

/-- The characters that separate words: white space of every script. -/
def isSpace (c : Char) : Bool :=
  let n := c.toNat
  (0x9 ≤ n && n ≤ 0xd) || n = 0x20 || n = 0x85 || n = 0xa0 || n = 0x1680 ||
    (0x2000 ≤ n && n ≤ 0x200a) || n = 0x2028 || n = 0x2029 || n = 0x202f || n = 0x205f || n = 0x3000

/-- Text without the characters of a class at its two ends. -/
def trim (isOuter : Char → Bool) (cs : List Char) : List Char :=
  ((cs.dropWhile isOuter).reverse.dropWhile isOuter).reverse

/-- The number spelled by digits, the first ones given as `acc`; a single underscore may stand
between two digits. -/
def digitRun? (digit? : Char → Option Nat) (acc : Nat) : List Char → Option Nat
  | [] => some acc
  | '_' :: c :: rest => do digitRun? digit? (acc * 10 + (← digit? c)) rest
  | c :: rest => do digitRun? digit? (acc * 10 + (← digit? c)) rest

/-- The number spelled by at least one digit, with single underscores between digits. -/
def digits? (digit? : Char → Option Nat) : List Char → Option Nat
  | [] => none
  | c :: rest => do digitRun? digit? (← digit? c) rest

/-- The number spelled by an optional sign and digits. -/
def integer? (digit? : Char → Option Nat) : List Char → Option Int
  | '+' :: rest => (digits? digit? rest).map Int.ofNat
  | '-' :: rest => (digits? digit? rest).map fun n => -(n : Int)
  | cs => (digits? digit? cs).map Int.ofNat

/-- The most digits that a numeral of base ten may have. -/
def maxDigits : Nat := 4300

/-- The number written with an optional sign and digits of any script, blanks around it aside. A
number of too many digits is not read. -/
def anyInteger? (text : String) : Option Int :=
  if maxDigits < text.toList.countP (fun c => (digit? c).isSome) then none
  else integer? digit? (trim isSpace text.toList)

end LinearExecutable.Text
