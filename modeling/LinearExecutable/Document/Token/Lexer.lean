import LinearExecutable.Document.Lexeme.Block
import LinearExecutable.Document.Lexeme.Plain
import LinearExecutable.Document.Lexeme.Quoted
import LinearExecutable.Document.Token.Basic

/-!
# From text to tokens

Tokens are read one after the other. Outside brackets the column of a token decides which lists and
mappings it ends. That something is a key is only known at the colon behind it, so its place is
remembered, and the tokens for it are put there later; a key and its colon stand on one line, not
too far from each other.
-/

namespace LinearExecutable.Document

/-- The place where a key may have started. -/
structure KeyStart where
  /-- The number of tokens in front of it. -/
  count : Nat
  /-- Nothing but a key can stand there. -/
  isRequired : Bool
  index : Nat
  mark : Mark
  deriving DecidableEq, Repr

/-- The greatest distance between the start of a key and its colon. -/
def maxKeyLength : Nat := 1024

/-- A bracket that is not closed yet. -/
inductive Bracket where
  | square
  | brace
  deriving DecidableEq, Repr

structure Lexer where
  place : Place
  edition : Edition
  /-- The tokens so far, the last one first, and their number. -/
  tokens : List Token
  count : Nat
  /-- The column of the list or mapping around the place, or -1, and those around it. -/
  indent : Int
  indents : List Int
  /-- The open brackets, the last one first. -/
  brackets : List Bracket
  /-- Whether a key may start at the place. -/
  mayStartKey : Bool
  /-- The place where a key may have started, within the last open bracket and around it. -/
  keys : List (Option KeyStart)
  /-- The end of the text has been reached. -/
  isDone : Bool
  deriving DecidableEq, Repr

namespace Lexer

/-- The start of a text. A mark of the byte order may stand in front of it. -/
def ofChars (cs : List Char) : Lexer where
  place := match cs with
    | '\ufeff' :: rest => ⟨1, ⟨0, 0⟩, rest⟩
    | _ => ⟨0, ⟨0, 0⟩, cs⟩
  edition := .current
  tokens := []
  count := 0
  indent := -1
  indents := []
  brackets := []
  mayStartKey := true
  keys := [none]
  isDone := false

/-- Whether a bracket is open. -/
def inFlow (s : Lexer) : Bool := !s.brackets.isEmpty

def push (s : Lexer) (t : Token) : Lexer :=
  { s with tokens := t :: s.tokens, count := s.count + 1 }

/-- Adds the token of the characters up to a place. -/
def pushTo (s : Lexer) (symbol : Symbol) (place : Place) : Lexer :=
  { s.push (.bare symbol s.place.mark place.mark) with place := place }

/-! ## Keys -/

/-- Whether the start of a key is too far away from a place. -/
def isStale (place : Place) (key : KeyStart) : Bool :=
  key.mark.line ≠ place.mark.line || maxKeyLength < place.index - key.index

/-- Forgets the starts of keys that are too far away. -/
def dropStale (s : Lexer) : Except ReadFault Lexer :=
  let stale (key? : Option KeyStart) : Bool := key?.any (isStale s.place)
  if s.keys.any fun key? => stale key? && key?.any KeyStart.isRequired then .error .malformed
  else .ok { s with keys := s.keys.map fun key? => if stale key? then none else key? }

/-- The start of a key at the current level. -/
def currentKey? (s : Lexer) : Option KeyStart := s.keys.head?.join

def withKey (s : Lexer) (key? : Option KeyStart) : Lexer :=
  { s with keys := key? :: s.keys.tail }

/-- Forgets the start of a key at the current level. -/
def dropKey (s : Lexer) : Except ReadFault Lexer :=
  if s.currentKey?.any KeyStart.isRequired then .error .malformed else .ok (s.withKey none)

/-- Remembers that a key may start at the place, and that none may start behind it. -/
def startKey (s : Lexer) : Except ReadFault Lexer :=
  if s.mayStartKey then do
    let s ← s.dropKey
    let isRequired := !s.inFlow && s.indent = s.place.column
    let s := s.withKey (some ⟨s.count, isRequired, s.place.index, s.place.mark⟩)
    return { s with mayStartKey := false }
  else .ok s

/-! ## Columns -/

/-- Ends the lists and mappings that stand further right than a column. -/
def unwindFrom (s : Lexer) (column : Int) : List Int → Lexer
  | [] => s
  | outer :: rest =>
    if column < s.indent then
      unwindFrom { s.push (.point .blockEnd s.place.mark) with indent := outer, indents := rest }
        column rest
    else s

def unwind (s : Lexer) (column : Int) : Lexer :=
  if s.inFlow then s else s.unwindFrom column s.indents

/-- Starts a list or mapping in a column, if none is there; `isNew` says so. -/
def indentTo (s : Lexer) (column : Nat) : Lexer × Bool :=
  if s.indent < column then
    ({ s with indent := column, indents := s.indent :: s.indents }, true)
  else (s, false)

/-- Starts a list or mapping at the place, if none is there. -/
def startBlock (s : Lexer) (symbol : Symbol) : Lexer :=
  let (s, isNew) := s.indentTo s.place.column
  if isNew then s.push (.point symbol s.place.mark) else s

/-! ## Tokens -/

/-- The end of the text. -/
def readEnd (s : Lexer) : Except ReadFault Lexer := do
  let s ← (s.unwind (-1)).dropKey
  let s := s.push (.point .textEnd s.place.mark)
  return { s with mayStartKey := false, isDone := true }

/-- A directive. -/
def readDirective (s : Lexer) : Except ReadFault Lexer := do
  let s ← (s.unwind (-1)).dropKey
  let (directive, place) ← directiveAt s.edition s.place
  let edition := match directive with
    | .edition e => e
    | _ => s.edition
  return { s.pushTo (.directive directive) place with edition, mayStartKey := false }

/-- A marker between documents. -/
def readMarker (s : Lexer) (symbol : Symbol) : Except ReadFault Lexer := do
  let s ← (s.unwind (-1)).dropKey
  return { s.pushTo symbol (s.place.forward 3) with mayStartKey := false }

/-- An opening bracket. -/
def readOpening (s : Lexer) (symbol : Symbol) (bracket : Bracket) : Except ReadFault Lexer := do
  let s ← s.startKey
  return { s.pushTo symbol s.place.next with
    brackets := bracket :: s.brackets
    keys := none :: s.keys
    mayStartKey := true }

/-- A closing bracket. -/
def readClosing (s : Lexer) (symbol : Symbol) : Except ReadFault Lexer := do
  let s ← s.dropKey
  return { s.pushTo symbol s.place.next with
    brackets := s.brackets.tail
    keys := if s.inFlow then s.keys.tail else s.keys
    mayStartKey := false }

/-- The comma between brackets. -/
def readComma (s : Lexer) : Except ReadFault Lexer := do
  let s ← s.dropKey
  return { s.pushTo .comma s.place.next with mayStartKey := true }

/-- The dash in front of an item. -/
def readDash (s : Lexer) : Except ReadFault Lexer := do
  if !s.inFlow && !s.mayStartKey then throw .malformed
  let s := if s.inFlow then s else s.startBlock .listStart
  let s ← s.dropKey
  return { s.pushTo .dash s.place.next with mayStartKey := true }

/-- The question mark in front of a key. -/
def readKeyMark (s : Lexer) : Except ReadFault Lexer := do
  if !s.inFlow && !s.mayStartKey then throw .malformed
  let s := if s.inFlow then s else s.startBlock .mappingStart
  let s ← s.dropKey
  return { s.pushTo .keyMark s.place.next with mayStartKey := !s.inFlow }

/-- Puts tokens, the last one first, behind the first `count` tokens. -/
def insert (s : Lexer) (count : Nat) (tokens : List Token) : Lexer :=
  let later := s.count - count
  { s with
    tokens := s.tokens.take later ++ tokens ++ s.tokens.drop later
    count := s.count + tokens.length }

/-- The colon in front of a value. It ends a key that may have started, or its key is marked or
missing. -/
def readValueMark (s : Lexer) : Except ReadFault Lexer :=
  match s.currentKey? with
  | some key =>
    let s := s.withKey none
    let (s, isNew) := if s.inFlow then (s, false) else s.indentTo key.mark.column
    let s := s.insert key.count
      (.point .keyMark key.mark :: if isNew then [.point .mappingStart key.mark] else [])
    .ok { s.pushTo .valueMark s.place.next with mayStartKey := false }
  | none => do
    if !s.inFlow && !s.mayStartKey then throw .malformed
    let s := if s.inFlow then s else s.startBlock .mappingStart
    let s ← s.dropKey
    return { s.pushTo .valueMark s.place.next with mayStartKey := !s.inFlow }

/-- An anchor or an alias. -/
def readName (s : Lexer) (symbol : List Char → Symbol) : Except ReadFault Lexer := do
  let s ← s.startKey
  let (name, place) ← nameAt s.place
  return { s.pushTo (symbol name) place with mayStartKey := false }

def readTag (s : Lexer) : Except ReadFault Lexer := do
  let s ← s.startKey
  let (tag, place) ← tagAt s.edition s.place
  return { s.pushTo (.tag tag) place with mayStartKey := false }

/-- A scalar between quotes. -/
def readQuoted (s : Lexer) : Except ReadFault Lexer := do
  let s ← s.startKey
  let (codes, place) ← quotedAt s.place
  return { s.pushTo (.scalar (.ofCodes codes) false) place with mayStartKey := false }

/-- The remarks of a scalar with comments around it. -/
def remarksOf? (front? : Option String) (behind? : Option Comment) : Option Remarks :=
  match front?, behind? with
  | none, none => none
  | _, _ => some ⟨behind?, front?.toList.map .bare, none⟩

/-- A block scalar. -/
def readBlock (s : Lexer) : Except ReadFault Lexer := do
  let s ← s.dropKey
  let scalar ← blockAt s.indent s.place
  let token : Token :=
    ⟨.scalar (.sound scalar.chars) false, s.place.mark, scalar.finish,
      remarksOf? scalar.front? scalar.behind?, none⟩
  return { s.push token with place := scalar.place, mayStartKey := true }

/-- A scalar without quotes. -/
def readPlain (s : Lexer) (ctx : PlainContext) : Except ReadFault Lexer := do
  let s ← s.startKey
  let scalar := ctx.scalarAt s.place
  let blankLines? := scalar.blankLines?.map fun lines =>
    Comment.mk (String.ofList lines) s.place.mark
  let token : Token :=
    ⟨.scalar (.sound scalar.chars) true, s.place.mark, scalar.finish, remarksOf? none blankLines?,
      none⟩
  return { s.push token with place := scalar.place, mayStartKey := scalar.hasBreak }

/-! ## The next token -/

/-- How scalars without quotes are read at the place. -/
def plainContext (s : Lexer) : PlainContext :=
  ⟨s.inFlow, s.edition = .former, s.indent + 1⟩

/-- Whether the last token, comments aside, is the colon in front of a value. -/
def isBehindValueMark (s : Lexer) : Bool :=
  let isComment (t : Token) : Bool := match t.symbol with
    | .comment _ => true
    | _ => false
  (s.tokens.find? fun t => !isComment t).any fun t => t.symbol = .valueMark

/-- Whether a colon at the place stands in front of a value. -/
def isValueMark (s : Lexer) (rest : List Char) : Bool :=
  endsToken rest ||
    match s.brackets with
    | [] => false
    | bracket :: _ =>
      s.edition = .former || (bracket = .brace && !s.isBehindValueMark)

/-- Reads the token that starts with `c` at the place. -/
def readToken (s : Lexer) (c : Char) (rest : List Char) : Except ReadFault Lexer :=
  let isFirst := s.place.column = 0
  let isMark := endsToken rest
  if c = '%' && isFirst then s.readDirective
  else if c = '-' && isFirst && isMarker s.place.rest then s.readMarker .documentStart
  else if c = '.' && isFirst && isMarker s.place.rest then s.readMarker .documentEnd
  else if c = '[' then s.readOpening .openList .square
  else if c = '\x7b' then s.readOpening .openMapping .brace
  else if c = ']' then s.readClosing .closeList
  else if c = '\x7d' then s.readClosing .closeMapping
  else if c = ',' then s.readComma
  else if c = '-' && isMark then s.readDash
  else if c = '?' && (s.inFlow || isMark) then s.readKeyMark
  else if c = ':' && s.isValueMark rest then s.readValueMark
  else if c = '*' then s.readName .reference
  else if c = '&' then s.readName .anchor
  else if c = '!' then s.readTag
  else if (c = '|' || c = '>') && !s.inFlow then s.readBlock
  else if c = '\'' || c = '"' then s.readQuoted
  else if s.plainContext.startsAt s.place.rest then s.readPlain s.plainContext
  else .error .malformed

/-- Reads the next token or the next comment. -/
def next (s : Lexer) : Except ReadFault Lexer :=
  let gap := s.place.gap s.inFlow
  let s := { s with
    place := gap.place
    mayStartKey := s.mayStartKey || (gap.hasBreak && !s.inFlow) }
  match gap.comment? with
  | some c =>
    .ok (s.push (.bare (.comment c.trimmed.text) c.mark gap.place.mark))
  | none => do
    let s := (← s.dropStale).unwind s.place.column
    match s.place.rest with
    | [] => s.readEnd
    | c :: rest => s.readToken c rest

/-- The number of tokens that can be used before the next one is read: the last one cannot, and
what may be a key cannot. -/
def usable (s : Lexer) : Nat :=
  (s.keys.filterMap (·.map KeyStart.count)).foldl Nat.min (s.count - 1)

/-- The tokens that can be used, in their order, and behind them the place where reading ends. -/
def stopped (s : Lexer) (fault : ReadFault) : List Token :=
  (s.tokens.drop (s.count - s.usable)).reverse ++ [.point (.broken fault) s.place.mark]

/-- Reads the remaining tokens. -/
def run : (steps : Nat) → Lexer → List Token
  | 0, s => s.stopped .malformed
  | steps + 1, s =>
    if s.isDone then s.tokens.reverse
    else
      match s.next with
      | .ok s => run steps s
      | .error fault => s.stopped fault

end Lexer

/-- The tokens of a text, with their comments. -/
def Token.ofChars (cs : List Char) : List Token :=
  giveComments none .undecided ((Lexer.ofChars cs).run (cs.length + 2))

end LinearExecutable.Document
