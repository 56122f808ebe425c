import LinearExecutable.Document.Fault
import LinearExecutable.Document.Place

/-!
# Block scalars

A block scalar is all lines behind its indicator that are indented enough. Its lines are kept as
they are, or folded: then a single line end between two lines that do not start with a blank becomes
a blank. The line ends behind its last line are dropped, kept, or all dropped but the first; those
that are dropped count as a comment on it.
-/

namespace LinearExecutable.Document

/-! ## The line of the indicator -/

/-- What becomes of the line ends behind the last line. -/
inductive Chomping where
  | clip
  | strip
  | keep
  deriving DecidableEq, Repr

def chomping? (c : Char) : Option Chomping :=
  if c = '+' then some .keep else if c = '-' then some .strip else none

/-- What stands behind the indicator of a block scalar. -/
structure BlockHeader where
  chomping : Chomping
  /-- How far the lines are indented, if it is written. -/
  indent? : Option Nat
  comment? : Option (List Char)
  deriving DecidableEq, Repr

/-- The digit behind an indicator, and the place behind it. -/
def indentDigit (p : Place) : Except ReadFault (Option Nat × Place) :=
  match p.rest with
  | c :: _ =>
    if c = '0' then .error .malformed
    else if c.isDigit then .ok (some (c.toNat - 48), p.next)
    else .ok (none, p)
  | [] => .ok (none, p)

/-- The sign behind an indicator, and the place behind it. -/
def chompingSign (p : Place) : Option Chomping × Place :=
  match p.rest with
  | c :: _ =>
    match chomping? c with
    | some chomping => (some chomping, p.next)
    | none => (none, p)
  | [] => (none, p)

/-- The header behind an indicator, and the place in front of the line end. -/
def blockHeader (p : Place) : Except ReadFault (BlockHeader × Place) := do
  let (early?, p) := chompingSign p
  let (indent?, p) ← indentDigit p
  let (late?, p) := if early?.isNone && indent?.isSome then chompingSign p else (none, p)
  if !endsWord p.rest then throw .malformed
  let (blanks, p) := p.span (· = ' ')
  let (comment, p) := if p.rest.head? = some '#' then p.span (fun c => !endsLine c) else ([], p)
  if !(p.rest.isEmpty || p.rest.head?.any endsLine) then throw .malformed
  return (⟨((early? <|> late?).getD .clip), indent?,
    if comment.isEmpty then none else some (blanks ++ comment)⟩, p)

/-! ## Indentation -/

/-- The blank lines in front of the first line, and how far the first line is indented. -/
structure BlockLead where
  /-- The last one first. -/
  breaks : List Char
  indent : Nat
  /-- The end of the last blank line. -/
  finish : Mark
  place : Place
  deriving DecidableEq, Repr

/-- Finds the first line that is not blank. A blank line may not be longer than the first one is
indented if it is the first that is not empty; `first?` is its length and `most` the greatest column
so far. -/
def blockLeadFrom (breaks : List Char) (first? : Option Nat) (most : Nat) (finish : Mark)
    (index : Nat) (mark : Mark) : List Char → Except ReadFault BlockLead
  | [] => finishLead breaks first? most finish ⟨index, mark, []⟩
  | c :: rest =>
    let after := mark.after c rest
    if c = ' ' then
      blockLeadFrom breaks first? (Nat.max most after.column) finish (index + 1) after rest
    else if isHalfBreak c rest then
      blockLeadFrom breaks first? most finish (index + 1) after rest
    else if isBreak c then
      let first? := first? <|> if 0 < mark.column then some mark.column else none
      blockLeadFrom (breakOf c :: breaks) first? most after (index + 1) after rest
    else finishLead breaks first? most finish ⟨index, mark, c :: rest⟩
where
  finishLead (breaks : List Char) (first? : Option Nat) (most : Nat) (finish : Mark)
      (place : Place) : Except ReadFault BlockLead :=
    if first?.any (· < most) then .error .malformed
    else .ok ⟨breaks, most, finish, place⟩

/-! ## Lines -/

/-- How the lines of a block scalar are read. -/
structure BlockContext where
  indent : Nat
  isFolded : Bool
  /-- The lines may start in the first column, where a marker ends the scalar. -/
  isOuter : Bool
  deriving DecidableEq, Repr

/-- What has been read of a block scalar. -/
structure BlockState where
  /-- The characters so far, the last one first. -/
  taken : List Char
  /-- The line end behind the last line. -/
  lineEnd? : Option Char
  /-- The blank lines since then, the last one first. -/
  breaks : List Char
  /-- Whether there is a line, and whether the last one starts with a blank. -/
  isIndented? : Option Bool
  /-- Within a line, not in front of one. -/
  inLine : Bool
  /-- The end of the last blank line. -/
  finish : Mark
  deriving DecidableEq, Repr

namespace BlockState

/-- The line ends in front of a line that starts with `c`, the last one first. -/
def joint (ctx : BlockContext) (s : BlockState) (c : Char) : List Char :=
  let isBlank := c = ' ' || c = '\t'
  if ctx.isFolded && s.lineEnd? = some '\n' && s.isIndented? = some false && !isBlank then
    s.breaks ++ if s.breaks.isEmpty then [' '] else []
  else s.breaks ++ s.lineEnd?.toList

/-- Starts a line with its first character. -/
def startLine (ctx : BlockContext) (s : BlockState) (c : Char) : BlockState :=
  { s with
    taken := s.joint ctx c ++ s.taken
    lineEnd? := none
    breaks := []
    isIndented? := some (c = ' ' || c = '\t')
    inLine := true }

/-- Ends a line; a half of a line end is passed over. -/
def endLine (s : BlockState) (c : Char) (after : Mark) : BlockState :=
  { s with lineEnd? := some (breakOf c), inLine := false, finish := after }

/-- The characters of the scalar, and the line ends behind it that are dropped. -/
def result (s : BlockState) (chomping : Chomping) : List Char × List Char :=
  let clipped := (s.lineEnd?.toList ++ s.taken).reverse
  match chomping with
  | .strip => (s.taken.reverse, s.breaks.reverse)
  | .clip => (clipped, s.breaks.reverse)
  | .keep => (clipped ++ s.breaks.reverse, [])

end BlockState

/-- Reads on in a block scalar up to the first line that does not belong to it. -/
def blockFrom (ctx : BlockContext) (s : BlockState) (index : Nat) (mark : Mark) :
    List Char → BlockState × Place
  | [] => (s, ⟨index, mark, []⟩)
  | c :: rest =>
    let here : Place := ⟨index, mark, c :: rest⟩
    let after := mark.after c rest
    if s.inLine then
      if isHalfBreak c rest then blockFrom ctx s (index + 1) after rest
      else if endsLine c then blockFrom ctx (s.endLine c after) (index + 1) after rest
      else blockFrom ctx { s with taken := c :: s.taken } (index + 1) after rest
    else if c = ' ' && mark.column < ctx.indent then blockFrom ctx s (index + 1) after rest
    else if isHalfBreak c rest then blockFrom ctx s (index + 1) after rest
    else if isBreak c then
      let s := { s with breaks := breakOf c :: s.breaks, finish := after }
      blockFrom ctx s (index + 1) after rest
    else if mark.column ≠ ctx.indent then (s, here)
    else if ctx.isOuter && s.isIndented?.isSome && mark.column = 0 && isMarker here.rest then
      (s, here)
    else
      let s := s.startLine ctx c
      blockFrom ctx { s with taken := c :: s.taken } (index + 1) after rest

/-! ## Behind the scalar -/

/-- The comments behind a block scalar, and the place behind them. -/
def commentsFrom (steps : Nat) (p : Place) : List Comment × Place :=
  let gap := p.gap false
  match steps, gap.comment? with
  | steps + 1, some c =>
    let (comments, place) := commentsFrom steps gap.place
    (c :: comments, place)
  | _, _ => ([], gap.place)

/-- A comment with the blanks in front of it. -/
def Comment.indented (c : Comment) : String :=
  "".pushn ' ' c.mark.column ++ c.text

/-- A block scalar. -/
structure BlockScalar where
  chars : List Char
  finish : Mark
  /-- The comment on the line of the indicator. -/
  front? : Option String
  /-- The line ends behind the scalar that are dropped, and the comments behind them. -/
  behind? : Option Comment
  place : Place
  deriving DecidableEq, Repr

/-- The block scalar whose indicator stands at a place, within a structure in the column `parent`,
or -1. -/
def blockAt (parent : Int) (p : Place) : Except ReadFault BlockScalar := do
  let isFolded := p.rest.head? = some '>'
  let (header, p) ← blockHeader p.next
  let p := p.skipBreak
  let least := (parent + 1).toNat
  let (indent, lead) ← match header.indent? with
    | some n => pure (Nat.max least 1 + n - 1, BlockLead.mk [] 0 p.mark p)
    | none => do
      let lead ← blockLeadFrom [] none 0 p.mark p.index p.mark p.rest
      pure (Nat.max least lead.indent, lead)
  let start := lead.place
  let (s, place) := blockFrom ⟨indent, isFolded, least = 0 && header.indent?.isNone⟩
    ⟨[], none, lead.breaks, none, false, lead.finish⟩ start.index start.mark start.rest
  let (chars, dropped) := s.result header.chomping
  let (comments, place) := if dropped.isEmpty then ([], place)
    else commentsFrom (place.rest.length + 1) place
  let behind := String.ofList dropped ++ String.join (comments.map Comment.indented)
  return {
    chars
    finish := s.finish
    front? := header.comment?.map String.ofList
    behind? := if dropped.isEmpty then none else some ⟨behind, s.finish⟩
    place }

end LinearExecutable.Document
