import LinearExecutable.Document.Comment

/-!
# Places in a text

A place is a position in a text together with the characters that follow. This module moves places
forward: over single characters, over line ends, and over blanks and comments to the next token.
The separators of lines and paragraphs end lines too, but only newlines and carriage returns are
counted in positions.
-/

namespace LinearExecutable.Document

/-! ## Characters -/

/-- The characters that end lines. -/
def isBreak (c : Char) : Bool :=
  c = '\n' || c = '\r' || c = '\x85' || c = '\u2028' || c = '\u2029'

/-- What a line end counts as. -/
def breakOf (c : Char) : Char :=
  if c = '\r' || c = '\x85' then '\n' else c

/-- Whether a carriage return is the first half of a line end. -/
def isHalfBreak (c : Char) (rest : List Char) : Bool :=
  c = '\r' && rest.head? = some '\n'

/-- The line ends that end comments and lines of block scalars. -/
def endsLine (c : Char) : Bool :=
  c = '\n' || c = '\r' || c = '\x85'

/-- Whether an indicator that needs space behind it has it. -/
def endsToken : List Char → Bool
  | [] => true
  | c :: _ => c = ' ' || c = '\t' || endsLine c

/-- Whether a line or the text ends here, or a blank stands here. -/
def endsWord : List Char → Bool
  | [] => true
  | c :: _ => c = ' ' || isBreak c

/-- Whether three dashes, or three points, stand here with space behind them. -/
def isMarker (rest : List Char) : Bool :=
  match rest with
  | '-' :: '-' :: '-' :: rest => endsToken rest
  | '.' :: '.' :: '.' :: rest => endsToken rest
  | _ => false

/-- Whether a marker between documents stands here, within a scalar. -/
def isBoundary : List Char → Bool
  | '-' :: '-' :: '-' :: rest => endsToken rest || endsWord rest
  | '.' :: '.' :: '.' :: rest => endsToken rest || endsWord rest
  | _ => false

/-! ## Places -/

/-- The position behind a character. The mark of the byte order takes no column. -/
def Mark.after (m : Mark) (c : Char) (rest : List Char) : Mark :=
  if c = '\n' || (c = '\r' && rest.head? ≠ some '\n') then ⟨m.line + 1, 0⟩
  else if c = '\ufeff' then m
  else ⟨m.line, m.column + 1⟩

/-- A position in a text and what follows it. -/
structure Place where
  /-- The number of characters in front. -/
  index : Nat
  mark : Mark
  rest : List Char
  deriving DecidableEq, Repr

namespace Place

/-- The place behind the next character. -/
def next (p : Place) : Place :=
  match p.rest with
  | [] => p
  | c :: rest => ⟨p.index + 1, p.mark.after c rest, rest⟩

/-- The place behind some characters. -/
def forward (p : Place) : Nat → Place
  | 0 => p
  | n + 1 => p.next.forward n

/-- The characters from here on that are of a class, and the place behind them. -/
def spanFrom (f : Char → Bool) (taken : List Char) (index : Nat) (mark : Mark) :
    List Char → List Char × Place
  | [] => (taken.reverse, ⟨index, mark, []⟩)
  | c :: rest =>
    if f c then spanFrom f (c :: taken) (index + 1) (mark.after c rest) rest
    else (taken.reverse, ⟨index, mark, c :: rest⟩)

def span (p : Place) (f : Char → Bool) : List Char × Place :=
  spanFrom f [] p.index p.mark p.rest

/-- The place behind the characters of a class. -/
def skipWhile (p : Place) (f : Char → Bool) : Place := (p.span f).2

/-- The place behind the line end that stands here, if one does. -/
def skipBreak (p : Place) : Place :=
  match p.rest with
  | '\r' :: '\n' :: _ => p.forward 2
  | c :: _ => if isBreak c then p.next else p
  | [] => p

def column (p : Place) : Nat := p.mark.column

end Place

/-! ## The way to the next token -/

/-- What is being read between two tokens. -/
inductive Between where
  /-- Blanks and line ends. -/
  | blank
  /-- A comment with its characters so far, the last one first. -/
  | comment (text : List Char) (start : Mark)
  /-- Line ends behind a comment. -/
  | behindComment (text : List Char) (start : Mark)
  /-- Blank lines behind a line end. -/
  | blankLines (text : List Char) (start : Mark)
  deriving DecidableEq, Repr

/-- What lies in front of the next token: a comment, or blanks and line ends up to the token. -/
structure Gap where
  comment? : Option Comment
  /-- A line ended. -/
  hasBreak : Bool
  place : Place
  deriving DecidableEq, Repr

/-- A comment whose characters are given from the last one on. -/
def commentOf (text : List Char) (start : Mark) : Comment :=
  ⟨String.ofList text.reverse, start⟩

/-- A comment without the blanks at its end. -/
def Comment.trimmed (c : Comment) : Comment :=
  commentOf (c.text.toList.reverse.dropWhile (· = ' ')) c.mark

/-- Blank lines, the last character first, without the blanks in front of a comment. -/
def upToComment (text : List Char) : List Char :=
  '\n' :: (text.dropWhile (· ≠ '\n')).tail

/-- The way from a place to the next token or to the end of the next comment. Tabs are blanks
between brackets, and in blank lines. -/
def gapFrom (inFlow : Bool) (state : Between) (hasBreak : Bool) (index : Nat) (mark : Mark) :
    List Char → Gap
  | [] =>
    let place : Place := ⟨index, mark, []⟩
    match state with
    | .blank => ⟨none, hasBreak, place⟩
    | .comment text start => ⟨some (commentOf ('\n' :: text) start), true, place⟩
    | .behindComment text start => ⟨some (commentOf text start), true, place⟩
    | .blankLines text start => ⟨some (commentOf text start), true, place⟩
  | c :: rest =>
    let here : Place := ⟨index, mark, c :: rest⟩
    let after := mark.after c rest
    match state with
    | .blank =>
      if c = ' ' || (inFlow && c = '\t') then gapFrom inFlow .blank hasBreak (index + 1) after rest
      else if c = '#' then gapFrom inFlow (.comment [c] mark) hasBreak (index + 1) after rest
      else if isHalfBreak c rest then gapFrom inFlow .blank hasBreak (index + 1) after rest
      else if isBreak c then
        let state := if rest.head? = some '\n' then .blankLines [] after else .blank
        gapFrom inFlow state true (index + 1) after rest
      else ⟨none, hasBreak, here⟩
    | .comment text start =>
      let state := if endsLine c then .behindComment (c :: text) start
        else .comment (c :: text) start
      gapFrom inFlow state hasBreak (index + 1) after rest
    | .behindComment text start =>
      if isHalfBreak c rest then
        gapFrom inFlow (.behindComment text start) true (index + 1) after rest
      else if isBreak c then
        gapFrom inFlow (.behindComment (breakOf c :: text) start) true (index + 1) after rest
      else ⟨some (commentOf text start), true, here⟩
    | .blankLines text start =>
      if isHalfBreak c rest then
        gapFrom inFlow (.blankLines text start) true (index + 1) after rest
      else if isBreak c || c = ' ' || c = '\t' then
        gapFrom inFlow (.blankLines (breakOf c :: text) start) true (index + 1) after rest
      else
        let text := if c = '#' then upToComment text else text
        ⟨some (commentOf text start), true, here⟩

/-- The way from a place to the next token or to the end of the next comment. -/
def Place.gap (p : Place) (inFlow : Bool) : Gap :=
  gapFrom inFlow .blank false p.index p.mark p.rest

end LinearExecutable.Document
