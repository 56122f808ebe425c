import LinearExecutable.Document.Block
import LinearExecutable.Document.Token.Lexer
import LinearExecutable.Proofs.Document.Words

/-!
# Lines of words

Keys and values that are words need no quotes, so the text of a mapping in a mapping has only the
characters of words, blanks, colons and line ends.
-/

namespace LinearExecutable.Document

/-- Key and value are words, and the colon is not too far away from the start of the key. -/
structure Line.IsSound (l : Line) : Prop where
  key : IsBareWord l.key
  length_le : l.key.length ≤ maxKeyLength
  value : ∀ word ∈ l.value.word?, IsBareWord word

end LinearExecutable.Document
