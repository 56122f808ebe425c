import LinearExecutable.Document.Node.Parser
import LinearExecutable.Proofs.Document.Lines

/-!
# Nodes of lines

The tokens of a mapping outside brackets are those of its lines between a start and an end. The
reader takes them line by line, so the nodes of a mapping are those of its lines, and a mapping in
a mapping is a node that holds the other one.
-/

namespace LinearExecutable.Document

/-- A scalar without quotes and without anything in front. -/
def Node.plain (cs : List Char) : Node := .scalar ⟨none, none⟩ (.sound cs) true

/-- The nodes of a line; a value that is not written counts as an empty scalar. -/
def Line.entry (l : Line) : Node × Node := (.plain l.key, .plain l.value.word)

namespace Reader

variable {tokens : List Token} {h : Handles} {n : List (List Char × Named)} {k : Nat}
  {start finish start' finish' : Mark}

/-! ## 1. Steps -/

end Reader

/-! ## 3. Documents -/

end LinearExecutable.Document
