import LinearExecutable.Document.Lexeme.Plain
import Mathlib.Data.List.Basic

/-!
# Words and the ends of lines

A word of letters, digits and underscores needs no quotes. It ends at the colon behind it, or at the
end of its line if the next line is not indented far enough to go on with it; then reading stops
where the next line has its first word.
-/

namespace LinearExecutable.Document

/-! ## 1. Words -/

/-- The characters of words that need no quotes. -/
def isBareChar (c : Char) : Bool := c.isAlphanum || c = '_'

structure IsBareWord (cs : List Char) : Prop where
  ne_nil : cs ≠ []
  all : ∀ c ∈ cs, isBareChar c

/-- Decimal digits, at least one. -/
structure IsNumeral (ds : List Char) : Prop where
  ne_nil : ds ≠ []
  all : ∀ c ∈ ds, c.isDigit

theorem isBareChar_of_isDigit {c : Char} (hc : c.isDigit) : isBareChar c := by
  rw [isBareChar, Char.isAlphanum, hc, Bool.or_true]
  rfl

theorem IsNumeral.isBareWord {ds : List Char} (hds : IsNumeral ds) : IsBareWord ds :=
  ⟨hds.ne_nil, fun c hc => isBareChar_of_isDigit (hds.all c hc)⟩

theorem IsBareWord.of_all {cs : List Char} (hne : cs.isEmpty = false) (hall : cs.all isBareChar) :
    IsBareWord cs :=
  ⟨List.isEmpty_eq_false_iff.mp hne, List.all_eq_true.mp hall⟩

end LinearExecutable.Document
