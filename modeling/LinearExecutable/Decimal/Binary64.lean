import LinearExecutable.Text.Decimal

/-!
# Decimal numerals as binary numbers

A numeral with a point or an exponent stands for the nearest number with a significand of 53 bits
and an exponent of at most eleven; of two that are equally near it is the one with the even
significand. Numbers are held as a significand and a power of two, so that all that is asked of
them, whether they are whole and which whole number they are, is exact.
-/

namespace LinearExecutable

/-- A binary number with 53 bits. -/
inductive Binary64 where
  | notANumber
  | infinite (negative : Bool)
  /-- `significand * 2 ^ exponent`. -/
  | finite (significand exponent : Int)
  deriving DecidableEq, Repr

namespace Binary64

/-- The whole number nearest to a ratio; of two that are equally near the even one. -/
def roundHalfEven (num den : Nat) : Nat :=
  let q := num / den
  let r := num % den
  if 2 * r < den then q
  else if den < 2 * r then q + 1
  else q + q % 2

/-- A ratio times a power of two, rounded. -/
def scaled (num den : Nat) (shift : Int) : Nat :=
  if 0 ≤ shift then roundHalfEven (num <<< shift.toNat) den
  else roundHalfEven num (den <<< (-shift).toNat)

/-- The greatest exponent of a power of two that a positive ratio reaches. -/
def floorLog2 (num den : Nat) : Int :=
  let k : Int := (num.log2 : Int) - den.log2
  let reached := if 0 ≤ k then den <<< k.toNat ≤ num else den ≤ num <<< (-k).toNat
  if reached then k else k - 1

/-- The number nearest to a ratio. -/
def ofRatio (negative : Bool) (num den : Nat) : Binary64 :=
  if num = 0 then .finite 0 0
  else
    let exponent := max (floorLog2 num den - 52) (-1074)
    let significand := scaled num den (-exponent)
    if 1024 ≤ exponent + significand.log2 then .infinite negative
    else .finite (if negative then -(significand : Int) else significand) exponent

/-- The number nearest to `digits * 10 ^ exponent`. Powers far beyond the range of the format are
not computed. -/
def ofDecimal (negative : Bool) (digits : Nat) (exponent : Int) : Binary64 :=
  let places : Int := (Nat.toDigits 10 digits).length + exponent
  if digits = 0 ∨ places < -400 then .finite 0 0
  else if 400 < places then .infinite negative
  else if 0 ≤ exponent then ofRatio negative (digits * Nat.pow 10 exponent.toNat) 1
  else ofRatio negative digits (Nat.pow 10 (-exponent).toNat)

/-- The whole number that a number is, if it is one. -/
def toInt? : Binary64 → Option Int
  | .finite significand exponent =>
    if 0 ≤ exponent then some (significand <<< exponent.toNat)
    else
      let unit : Int := 1 <<< (-exponent).toNat
      if significand % unit = 0 then some (significand / unit) else none
  | _ => none

def isFinite : Binary64 → Bool
  | .finite _ _ => true
  | _ => false

/-- Whether two numbers are equal; no number is equal to one that is not a number. -/
def isEqual : Binary64 → Binary64 → Bool
  | .finite m e, .finite m' e' =>
    let least := min e e'
    m <<< (e - least).toNat = m' <<< (e' - least).toNat
  | .infinite negative, .infinite negative' => negative = negative'
  | _, _ => false

/-! ## Numerals -/

/-- The whole number of an exponent: digits with an optional sign. -/
def exponent? : List Char → Option Int
  | '+' :: rest => (Text.digits? Text.asciiDigit? rest).map Int.ofNat
  | '-' :: rest => (Text.digits? Text.asciiDigit? rest).map fun n => -(n : Int)
  | cs => (Text.digits? Text.asciiDigit? cs).map Int.ofNat

/-- The number of a numeral without a sign: digits, a point and digits, and an exponent behind `e`;
either run of digits may be missing, but not both. -/
def ofNumeral? (negative : Bool) (cs : List Char) : Option Binary64 := do
  let whole := cs.takeWhile Char.isDigit
  let rest := cs.dropWhile Char.isDigit
  let (fraction, rest) := match rest with
    | '.' :: more => (more.takeWhile Char.isDigit, more.dropWhile Char.isDigit)
    | _ => ([], rest)
  let digits ← Text.digits? Text.asciiDigit? (whole ++ fraction)
  let exponent ← match rest with
    | [] => some 0
    | c :: more => if c = 'e' || c = 'E' then exponent? more else none
  return ofDecimal negative digits (exponent - fraction.length)

end Binary64

end LinearExecutable
