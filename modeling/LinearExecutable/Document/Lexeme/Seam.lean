import LinearExecutable.Document.Place

/-!
# Joining the lines of a scalar

What stands between the words of a scalar is blanks, or line ends with blanks around them. Blanks
stay as they are; line ends are joined: a single one becomes a blank, and of several the first one
is dropped.
-/

namespace LinearExecutable.Document

/-- What has been read since the last word of a scalar. -/
inductive Seam where
  /-- Nothing. -/
  | none
  /-- Blanks, the last one first. -/
  | blanks (bs : List Char)
  /-- Line ends: the first one, unless it is escaped, and the further ones, the last one first. -/
  | lines (first? : Option Char) (breaks : List Char)
  deriving DecidableEq, Repr

namespace Seam

/-- What a seam becomes in the scalar. -/
def joined : Seam → List Char
  | .none => []
  | .blanks bs => bs.reverse
  | .lines first? breaks =>
    match first? with
    | some '\n' => if breaks.isEmpty then [' '] else breaks.reverse
    | some c => c :: breaks.reverse
    | _ => breaks.reverse

/-- A seam with a blank behind it; blanks around line ends do not count. -/
def withBlank (s : Seam) (c : Char) : Seam :=
  match s with
  | .none => .blanks [c]
  | .blanks bs => .blanks (c :: bs)
  | .lines first? breaks => .lines first? breaks

/-- A seam with a line end behind it. -/
def withBreak (s : Seam) (c : Char) : Seam :=
  match s with
  | .none | .blanks _ => .lines (some (breakOf c)) []
  | .lines first? breaks => .lines first? (breakOf c :: breaks)

/-- A seam with the first half of a line end behind it. -/
def withHalfBreak : Seam → Seam
  | .none => .blanks []
  | s => s

/-- Whether a line ended. -/
def hasBreak : Seam → Bool
  | .lines _ _ => true
  | _ => false

end Seam

end LinearExecutable.Document
