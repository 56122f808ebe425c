import LinearExecutable.Text.Quoted

/-!
# Comments and where they stand

A token keeps the comment behind it and the comments in front of it. Some tokens have no part in the
document of their own, such as the colon behind a key; they hand their comments to the next token. A
token has one place for each, so two comments may collide.
-/

namespace LinearExecutable.Document

/-- A position in a text: line and column, both counted from zero. -/
structure Mark where
  line : Nat
  column : Nat
  deriving DecidableEq, Repr

/-- A comment with the line ends behind it, or blank lines alone. -/
structure Comment where
  text : String
  mark : Mark
  deriving DecidableEq, Repr

/-- What stands in front of a token. -/
inductive Remark where
  | comment (c : Comment)
  /-- A comment on the line of the indicator that starts the token; no position is kept. -/
  | bare (text : String)
  deriving DecidableEq, Repr

/-- The comments of a token. -/
structure Remarks where
  behind? : Option Comment
  front : List Remark
  /-- The comment behind a colon, once more, if it was handed to this token. -/
  again? : Option (Option Comment)
  deriving DecidableEq, Repr

/-- The text of a comment as messages show it. -/
def Comment.shown (c : Comment) : String :=
  s!"CommentToken({Text.quoted c.text}, line: {c.mark.line}, col: {c.mark.column})"

def shownComment? : Option Comment → String
  | some c => c.shown
  | none => "None"

def Remark.shown : Remark → String
  | .comment c => c.shown
  | .bare text => Text.quoted text

namespace Remarks

/-- Remarks in front of a token and nothing else. -/
def ofFront (front : List Remark) : Remarks := ⟨none, front, none⟩

/-- The comments of a token as messages show them. -/
def shown (r : Remarks) : String :=
  let front := if r.front.isEmpty then "None"
    else "[" ++ ", ".intercalate (r.front.map Remark.shown) ++ "]"
  let again := match r.again? with
    | some c? => ["None", "None", shownComment? c?]
    | none => []
  "[" ++ ", ".intercalate ([shownComment? r.behind?, front] ++ again) ++ "]"

/-- The comments of a token together with those that are handed to it, unless they collide. -/
def join? (moved kept : Remarks) : Option Remarks :=
  if (moved.behind?.isSome && kept.behind?.isSome) ||
      (!moved.front.isEmpty && !kept.front.isEmpty) then none
  else some
    { kept with
      behind? := moved.behind? <|> kept.behind?
      front := moved.front ++ kept.front }

end Remarks

end LinearExecutable.Document
