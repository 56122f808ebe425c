import LinearExecutable.Document.Fault

/-!
# Dates and times

A date is written as year, month and day; a time of day and the distance to universal time may
follow. Two of them are the same if they name the same day, or the same moment, in the calendar that
has a leap day in every fourth year, in a hundredth one only if it is a four-hundredth one.
-/

namespace LinearExecutable.Document

inductive Timestamp where
  /-- A day, counted from one for the first day of the first year. -/
  | date (day : Int)
  /-- A moment, in millionths of a second since the start of day zero. -/
  | moment (micros : Int)
  deriving DecidableEq, Repr

namespace Timestamp

/-! ## The calendar -/

def isLeap (year : Nat) : Bool :=
  year % 4 = 0 && (year % 100 ≠ 0 || year % 400 = 0)

/-- The days of a month. -/
def monthDays (year month : Nat) : Nat :=
  if month = 2 then (if isLeap year then 29 else 28)
  else if [4, 6, 9, 11].contains month then 30 else 31

/-- The days of a year in front of a month. -/
def daysBefore (year : Nat) : (month : Nat) → Nat
  | 0 | 1 => 0
  | month + 1 => daysBefore year month + monthDays year month

/-- The number of a day. -/
def dayNumber (year month day : Nat) : Nat :=
  let past := year - 1
  past * 365 + past / 4 - past / 100 + past / 400 + daysBefore year month + day

/-- The number of the last day, at the end of the year 9999. -/
def lastDay : Int := 3652059

def microsPerDay : Int := 86400000000

/-! ## Parts of the text -/

/-- The parts of a date with a time of day. -/
structure Clock where
  hour : Nat
  minute : Nat
  second : Nat
  /-- The digits behind the point. -/
  fraction : List Nat
  /-- How far the clock is ahead of universal time, in minutes. -/
  ahead : Int
  deriving DecidableEq, Repr

structure Parts where
  year : Nat
  month : Nat
  day : Nat
  clock? : Option Clock
  /-- The month and the day have two digits each. -/
  isLong : Bool
  deriving DecidableEq, Repr

/-- The digits at the start of a text, at most `most` of them, and what follows. -/
def digitsUpTo (most : Nat) (cs : List Char) : List Nat × List Char :=
  let run := (cs.take most).takeWhile Char.isDigit
  (run.map fun c => c.toNat - 48, cs.drop run.length)

/-- The number spelled by decimal digits. -/
def ofDigits (digits : List Nat) : Nat :=
  digits.foldl (fun n d => 10 * n + d) 0

/-- A number of `least` to `most` digits, how many there are, and what follows. -/
def number? (least most : Nat) (cs : List Char) : Option (Nat × Nat × List Char) :=
  let (digits, rest) := digitsUpTo most cs
  if digits.length < least then none else some (ofDigits digits, digits.length, rest)

/-- What follows a character. -/
def behind? (c : Char) : List Char → Option (List Char)
  | d :: rest => if c = d then some rest else none
  | [] => none

def isBlank (c : Char) : Bool := c = ' ' || c = '\t'

/-- The distance to universal time at the end of a text, in minutes. -/
def zone? (cs : List Char) : Option Int :=
  match cs.dropWhile isBlank with
  | [] => if cs.isEmpty then some 0 else none
  | ['Z'] => some 0
  | sign :: rest => do
    let ahead ← if sign = '+' then some true else if sign = '-' then some false else none
    let (hours, _, rest) ← number? 1 2 rest
    let minutes ← match rest with
      | [] => some 0
      | ':' :: rest =>
        match number? 2 2 rest with
        | some (minutes, _, []) => some minutes
        | _ => none
      | _ => none
    let distance : Int := hours * 60 + minutes
    return if ahead then distance else -distance

/-- The time of day at the end of a text. -/
def clock? (cs : List Char) : Option Clock := do
  let (hour, _, rest) ← number? 1 2 cs
  let (minute, _, rest) ← number? 2 2 (← behind? ':' rest)
  let (second, _, rest) ← number? 2 2 (← behind? ':' rest)
  let (fraction, rest) := match rest with
    | '.' :: rest => digitsUpTo rest.length rest
    | _ => ([], rest)
  return { hour, minute, second, fraction, ahead := ← zone? rest }

/-- The text of a time of day behind a date: a letter or blanks stand between the two. -/
def clockText? : List Char → Option (List Char)
  | 'T' :: rest | 't' :: rest => some rest
  | c :: rest => if isBlank c then some (rest.dropWhile isBlank) else none
  | [] => none

/-- The parts of a date or time. -/
def parts? (cs : List Char) : Option Parts := do
  let (year, _, rest) ← number? 4 4 cs
  let (month, m, rest) ← number? 1 2 (← behind? '-' rest)
  let (day, d, rest) ← number? 1 2 (← behind? '-' rest)
  let clock? ← if rest.isEmpty then some none else (clock? (← clockText? rest)).map some
  return { year, month, day, clock?, isLong := m = 2 && d = 2 }

/-! ## The value -/

/-- The millionths of a second in a fraction; the seventh digit rounds. -/
def fractionMicros (fraction : List Nat) : Nat :=
  let six := (fraction ++ [0, 0, 0, 0, 0, 0]).take 6
  ofDigits six + (if 4 < (fraction.drop 6).headD 0 then 1 else 0)

/-- The first part that is out of its range. -/
def Parts.fault? (p : Parts) : Option TimeField :=
  if p.year = 0 then some (.year p.year)
  else if p.month = 0 || 12 < p.month then some .month
  else if p.day = 0 || monthDays p.year p.month < p.day then some .day
  else
    match p.clock? with
    | none => none
    | some c =>
      if 23 < c.hour then some .hour
      else if 59 < c.minute then some .minute
      else if 59 < c.second then some .second
      else none

/-- The date or the moment with the given parts. -/
def ofParts (p : Parts) : Except ReadFault Timestamp :=
  match p.fault? with
  | some field => .error (.timeRange field)
  | none =>
    let day : Int := dayNumber p.year p.month p.day
    match p.clock? with
    | none => .ok (.date day)
    | some c =>
      let seconds : Int := (c.hour * 60 + c.minute : Nat) * 60 - c.ahead * 60 + c.second
      let micros := day * microsPerDay + seconds * 1000000 + fractionMicros c.fraction
      if micros < microsPerDay || (lastDay + 1) * microsPerDay ≤ micros then .error .timeOverflow
      else .ok (.moment micros)

end Timestamp

end LinearExecutable.Document
