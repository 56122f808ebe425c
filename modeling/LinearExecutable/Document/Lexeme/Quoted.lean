import LinearExecutable.Document.Fault
import LinearExecutable.Document.Lexeme.Seam

/-!
# Scalars between quotes

Between single quotes a quote is written twice and nothing else is special. Between double quotes a
backslash starts an escape; an escape may name any code point by its number, also one that is no
character.
-/

namespace LinearExecutable.Document

/-- The character of an escape of one letter. -/
def escape? : Char → Option Char
  | '0' => some '\x00'
  | 'a' => some '\x07'
  | 'b' => some '\x08'
  | 't' => some '\t'
  | '\t' => some '\t'
  | 'n' => some '\n'
  | 'v' => some '\x0b'
  | 'f' => some '\x0c'
  | 'r' => some '\r'
  | 'e' => some '\x1b'
  | ' ' => some ' '
  | '"' => some '"'
  | '/' => some '/'
  | '\\' => some '\\'
  | 'N' => some '\x85'
  | '_' => some '\xa0'
  | 'L' => some '\u2028'
  | 'P' => some '\u2029'
  | _ => none

/-- The number of hexadecimal digits behind a letter of an escape. -/
def escapeWidth? : Char → Option Nat
  | 'x' => some 2
  | 'u' => some 4
  | 'U' => some 8
  | _ => none

/-- What a hexadecimal digit is worth. -/
def hexDigit? (c : Char) : Option Nat :=
  if c.isDigit then some (c.toNat - 48)
  else if 'a' ≤ c && c ≤ 'f' then some (c.toNat - 87)
  else if 'A' ≤ c && c ≤ 'F' then some (c.toNat - 55)
  else none

/-- The code point with a number of `width` hexadecimal digits. -/
def numbered (width : Nat) (cs : List Char) : Except ReadFault Nat :=
  let digits := cs.take width
  let code? := digits.foldlM (fun n c => (hexDigit? c).map (n * 16 + ·)) 0
  match code? with
  | none => .error .malformed
  | some code =>
    if digits.length < width then .error .malformed
    else if 0x7fffffff < code then .error .hugeCodePoint
    else if 0x10ffff < code then .error .noCodePoint
    else .ok code

/-- What an escape stands for. -/
inductive Escape where
  /-- A code point, written in some characters. -/
  | code (n width : Nat)
  /-- A line end that does not count, of some characters. -/
  | join (width : Nat)
  deriving DecidableEq, Repr

/-- The escape behind a backslash. -/
def Escape.read (rest : List Char) : Except ReadFault Escape :=
  match rest with
  | [] => .error .malformed
  | letter :: more =>
    match escape? letter, escapeWidth? letter with
    | some c, _ => .ok (.code c.toNat 1)
    | none, some width => (numbered width more).map fun n => .code n (width + 1)
    | none, none =>
      if !isBreak letter then .error .malformed
      else
        let width := if isHalfBreak letter more then 2 else 1
        if isBoundary (rest.drop width) then .error .malformed else .ok (.join width)

/-- Reads on in a scalar between quotes, from the code points so far, the last one first. `skipped`
counts the characters that have been taken into account already. -/
def quotedFrom (quote : Char) (taken : List Nat) (seam : Seam) (skipped index : Nat) (mark : Mark) :
    List Char → Except ReadFault (List Nat × Place)
  | [] => .error .malformed
  | c :: rest =>
    let after := mark.after c rest
    let flushed := (seam.joined.map Char.toNat).reverse ++ taken
    match skipped with
    | skipped + 1 => quotedFrom quote taken seam skipped (index + 1) after rest
    | 0 =>
      if c = ' ' || c = '\t' then
        quotedFrom quote taken (seam.withBlank c) 0 (index + 1) after rest
      else if isHalfBreak c rest then
        quotedFrom quote taken seam.withHalfBreak 0 (index + 1) after rest
      else if isBreak c then
        if isBoundary rest then .error .malformed
        else quotedFrom quote taken (seam.withBreak c) 0 (index + 1) after rest
      else if c = quote then
        if quote = '\'' && rest.head? = some quote then
          quotedFrom quote (c.toNat :: flushed) .none 1 (index + 1) after rest
        else .ok (flushed.reverse, ⟨index + 1, after, rest⟩)
      else if quote = '"' && c = '\\' then
        match Escape.read rest with
        | .error fault => .error fault
        | .ok (.code n width) =>
          quotedFrom quote (n :: flushed) .none width (index + 1) after rest
        | .ok (.join width) =>
          quotedFrom quote flushed (.lines none []) width (index + 1) after rest
      else quotedFrom quote (c.toNat :: flushed) .none 0 (index + 1) after rest

/-- The code points of the scalar between quotes that starts at a place, and the place behind it. -/
def quotedAt (p : Place) : Except ReadFault (List Nat × Place) :=
  match p.rest with
  | quote :: _ => quotedFrom quote [] .none 0 p.next.index p.next.mark p.next.rest
  | [] => .error .malformed

end LinearExecutable.Document
