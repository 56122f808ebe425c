import LinearExecutable.Document.Lexeme.Seam

/-!
# Scalars without quotes

A scalar without quotes ends in front of a comment, in front of an indicator, and, outside brackets,
where a line is not indented enough. Blank lines behind it count as a comment on it.
-/

namespace LinearExecutable.Document

/-- Where scalars without quotes stand. -/
structure PlainContext where
  /-- Between brackets. -/
  inFlow : Bool
  /-- A question mark ends a scalar between brackets. -/
  isFormer : Bool
  /-- The column that further lines have to reach outside brackets. -/
  indent : Int
  deriving DecidableEq, Repr

/-- Whether a scalar without quotes can start here. -/
def PlainContext.startsAt (ctx : PlainContext) : List Char → Bool
  | [] => false
  | c :: rest =>
    if c = '-' then !endsToken rest
    else if c = '?' then !ctx.inFlow && !endsToken rest
    else if c = ':' then
      if ctx.inFlow then !ctx.isFormer && rest.head? ≠ some ' ' && rest.head? ≠ some '\t'
      else !endsToken rest
    else !(isBreak c || " \t,[]\x7b\x7d#&*!|>'\"%@\x60".toList.contains c)

/-- Whether a scalar without quotes goes on over a character. -/
def PlainContext.goesOver (ctx : PlainContext) (c : Char) (rest : List Char) : Bool :=
  if c = ':' then !endsToken rest
  else if c = '?' then !ctx.inFlow || !ctx.isFormer
  else !(endsToken [c] || (ctx.inFlow && ",[]\x7b\x7d".toList.contains c))

/-- A scalar without quotes. -/
structure PlainScalar where
  chars : List Char
  /-- Where its last word ends. -/
  finish : Mark
  /-- The blank lines behind it. -/
  blankLines? : Option (List Char)
  /-- A line ended behind its last word. -/
  hasBreak : Bool
  place : Place
  deriving DecidableEq, Repr

/-- A scalar that ends at a place, behind a seam. -/
def PlainScalar.ofEnd (taken : List Char) (finish : Mark) (seam : Seam) (place : Place) :
    PlainScalar where
  chars := taken.reverse
  finish := finish
  blankLines? := match seam with
    | .lines _ _ => if seam.joined.head? = some '\n' then some (seam.joined ++ ['\n']) else none
    | _ => none
  hasBreak := seam.hasBreak
  place := place

/-- Reads on in a scalar without quotes. The characters so far are given from the last one on;
`finish` is where the last word ends. A marker between documents ends the scalar at once. -/
def plainFrom (ctx : PlainContext) (taken : List Char) (finish : Mark) (seam : Seam) (index : Nat)
    (mark : Mark) : List Char → PlainScalar
  | [] => .ofEnd taken (if seam = .none then mark else finish) seam ⟨index, mark, []⟩
  | c :: rest =>
    let here : Place := ⟨index, mark, c :: rest⟩
    let after := mark.after c rest
    let finish := if seam = .none then mark else finish
    if seam = .none && ctx.goesOver c rest then
      plainFrom ctx (c :: taken) finish .none (index + 1) after rest
    else if c = ' ' then plainFrom ctx taken finish (seam.withBlank c) (index + 1) after rest
    else if isHalfBreak c rest then
      plainFrom ctx taken finish seam.withHalfBreak (index + 1) after rest
    else if isBreak c then
      if isBoundary rest then ⟨taken.reverse, finish, none, true, ⟨index + 1, after, rest⟩⟩
      else plainFrom ctx taken finish (seam.withBreak c) (index + 1) after rest
    else if seam ≠ .none && c ≠ '#' && (ctx.inFlow || ctx.indent ≤ mark.column) &&
        ctx.goesOver c rest then
      plainFrom ctx (c :: (seam.joined.reverse ++ taken)) finish .none (index + 1) after rest
    else .ofEnd taken finish seam here

/-- The scalar without quotes that starts at a place. -/
def PlainContext.scalarAt (ctx : PlainContext) (p : Place) : PlainScalar :=
  plainFrom ctx [] p.mark .none p.index p.mark p.rest

end LinearExecutable.Document
