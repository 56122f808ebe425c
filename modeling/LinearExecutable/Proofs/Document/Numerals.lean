import LinearExecutable.Document.Scalar
import LinearExecutable.Proofs.Document.Words
import Mathlib.Data.List.TakeWhile

/-!
# Numerals without quotes

A scalar without quotes is tried as every kind of value. Digits have no sign, no marker of a base
and no point, so they are taken as the whole number that they spell, as long as they are not too
many. Zeros in front mean nothing.
-/

namespace LinearExecutable.Document

/-! ## 1. Digits -/

namespace IsNumeral

variable {ds : List Char}

end IsNumeral

end LinearExecutable.Document
