import LinearExecutable.Document.Lexeme.Name

/-!
# Tokens

A text is a list of tokens. Between brackets they are the brackets, commas and colons that are
written; outside, where the columns decide, further tokens say where lists and mappings start and
end, and where a key stands.
-/

namespace LinearExecutable.Document

inductive Symbol where
  | directive (d : Directive)
  | documentStart
  | documentEnd
  | textEnd
  /-- Square brackets, braces, and the comma between them. -/
  | openList
  | closeList
  | openMapping
  | closeMapping
  | comma
  /-- The start of a list or a mapping outside brackets, and the end of either. -/
  | listStart
  | mappingStart
  | blockEnd
  /-- The dash in front of an item. -/
  | dash
  /-- What stands in front of a key, and in front of a value. -/
  | keyMark
  | valueMark
  | reference (name : List Char)
  | anchor (name : List Char)
  | tag (t : WrittenTag)
  | scalar (w : Wording) (isPlain : Bool)
  | comment (text : String)
  /-- The place where no token can be read. -/
  | broken (fault : ReadFault)
  deriving DecidableEq, Repr

structure Token where
  symbol : Symbol
  start : Mark
  finish : Mark
  remarks? : Option Remarks
  /-- The comment behind the token that the token has only from when it is taken. -/
  late? : Option Comment
  deriving DecidableEq, Repr

namespace Token

/-- A token without comments. -/
def bare (symbol : Symbol) (start finish : Mark) : Token := ⟨symbol, start, finish, none, none⟩

/-- A token that takes no characters. -/
def point (symbol : Symbol) (m : Mark) : Token := ⟨symbol, m, m, none, none⟩

/-- Whether a comment on the line where a token ends belongs to it. -/
def takesComment (t : Token) : Bool :=
  match t.symbol with
  | .scalar _ _ | .valueMark | .closeList | .closeMapping => true
  | _ => false

def isScalar (t : Token) : Bool :=
  match t.symbol with
  | .scalar _ _ => true
  | _ => false

/-- Puts a comment behind a token that is not taken yet. -/
def withBehind (t : Token) (c : Comment) : Token := { t with late? := some c }

/-- A token when it is taken: the comment behind it takes the place of what was handed to it. -/
def taken (t : Token) : Token :=
  match t.late? with
  | none => t
  | some c =>
    { t with
      remarks? := some { t.remarks?.getD ⟨none, [], none⟩ with behind? := some c }
      late? := none }

/-- Puts comments in front of a token; there may be none already. -/
def withFront (t : Token) (front : List Remark) : Token :=
  match front, t.remarks? with
  | [], _ => t
  | _, none => { t with remarks? := some (.ofFront front) }
  | _, some r =>
    if r.front.isEmpty then { t with remarks? := some { r with front := front } }
    else { t with symbol := .broken .doubled }

end Token

/-! ## Comments and their tokens -/

/-- How the comments that follow the last token are treated. -/
inductive CommentUse where
  /-- There is none so far. -/
  | undecided
  /-- They are one comment behind the token. -/
  | behind (c : Comment)
  /-- They stand in front of the next token. -/
  | front (comments : List Remark)
  deriving DecidableEq, Repr

/-- How a comment is treated: on the line where the last token ends it may belong to it, behind a
scalar it does on any line, and otherwise it belongs to the next one. -/
def CommentUse.next (use : CommentUse) (last? : Option Token) (c : Comment) : CommentUse :=
  let indent := "".pushn ' ' c.mark.column
  match use, last? with
  | .behind first, _ => .behind { first with text := first.text ++ indent ++ c.text }
  | .front comments, _ => .front (comments ++ [.comment c])
  | .undecided, some last =>
    if last.takesComment && last.finish.line = c.mark.line then .behind c
    else if last.isScalar then
      let lines := "".pushn '\n' (c.mark.line - last.finish.line)
      .behind { c with text := lines ++ indent ++ c.text }
    else .front [.comment c]
  | .undecided, none => .front [.comment c]

/-- Gives comments to the tokens that they belong to. `last?` is the last token. -/
def giveComments (last? : Option Token) (use : CommentUse) : List Token → List Token
  | [] =>
    match use with
    | .behind c => (last?.map (·.withBehind c)).toList
    | _ => last?.toList
  | t :: rest =>
    match t.symbol with
    | .comment words => giveComments last? (use.next last? ⟨words, t.start⟩) rest
    | _ =>
      match use with
      | .undecided => last?.toList ++ giveComments (some t) .undecided rest
      | .behind c => (last?.map (·.withBehind c)).toList ++ giveComments (some t) .undecided rest
      | .front front => last?.toList ++ giveComments (some (t.withFront front)) .undecided rest

end LinearExecutable.Document
