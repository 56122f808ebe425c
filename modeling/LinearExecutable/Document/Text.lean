import LinearExecutable.Document.Node.Parser
import LinearExecutable.Document.Node.Value
import LinearExecutable.Document.Token.Lexer

/-!
# Documents as text

A text holds one document; a text without anything but blanks and comments is the null document.
Characters without a printed form, line ends and tabs aside, are refused.
-/

namespace LinearExecutable.Document

/-- The characters that a text may hold. -/
def isAllowed (c : Char) : Bool :=
  let n := c.toNat
  n = 0x9 || n = 0xa || n = 0xd || (0x20 ≤ n && n ≤ 0x7e) || n = 0x85 ||
    (0xa0 ≤ n && n ≠ 0xfffe && n ≠ 0xffff)

/-- The document of a list of characters. -/
def ofChars (cs : List Char) : Except ReadFault Document := do
  if !cs.all isAllowed then throw .malformed
  match ← Node.ofTokens (Token.ofChars cs) with
  | none => return .null
  | some (e, node) => node.document e

/-- The document of a text. -/
def ofText (text : String) : Except ReadFault Document := ofChars text.toList

end LinearExecutable.Document
