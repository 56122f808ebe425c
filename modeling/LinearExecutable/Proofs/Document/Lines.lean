import LinearExecutable.Proofs.Bytes.Window
import LinearExecutable.Proofs.Document.Block
import Mathlib.Data.List.Forall2

/-!
# Tokens of lines

A mapping outside brackets is written as lines: a key, a colon, and a value on the same line, on a
line of its own, or none. The lexer reads such lines one after the other. Every line leaves it in
front of the next one, and all that it keeps is the columns of the mappings that have started, so
the tokens of a text are those of its lines with the starts and the ends of the mappings around
them.
-/

namespace LinearExecutable.Document

/-! ## 1. Lines -/

namespace LineValue

/-- The characters of the value; one that is not written has none. -/
def word (value : LineValue) : List Char := value.word?.getD []

def symbols (value : LineValue) : List Symbol :=
  (value.word?.map fun word => Symbol.scalar (.sound word) true).toList

end LineValue

namespace Line

def symbols (l : Line) : List Symbol :=
  [.keyMark, .scalar (.sound l.key) true, .valueMark] ++ l.value.symbols

end Line

/-- Tokens without comments that stand for symbols. -/
def Spells (tokens : List Token) (symbols : List Symbol) : Prop :=
  List.Forall₂ (fun t symbol => ∃ start finish, t = .bare symbol start finish) tokens symbols

namespace Spells

variable {tokens : List Token} {symbols : List Symbol}

end Spells

namespace Lexer

/-- Some steps lead from one state to another and add tokens for symbols. -/
structure Reaches (s : Lexer) (n : Nat) (symbols : List Symbol) (s' : Lexer) : Prop where
  run_eq : ∀ steps, run (steps + n) s = run steps s'
  tokens : ∃ tokens, s'.tokens = tokens.reverse ++ s.tokens ∧ Spells tokens symbols

theorem Reaches.refl (s : Lexer) : s.Reaches 0 [] s := ⟨fun _ => rfl, [], rfl, .nil⟩

theorem Reaches.trans {s s' s'' : Lexer} {n n' : Nat} {symbols symbols' : List Symbol}
    (h : s.Reaches n symbols s') (h' : s'.Reaches n' symbols' s'') :
    s.Reaches (n + n') (symbols ++ symbols') s'' := by
  obtain ⟨tokens, htokens, hspells⟩ := h.tokens
  obtain ⟨tokens', htokens', hspells'⟩ := h'.tokens
  refine ⟨fun steps => ?_, tokens ++ tokens', ?_, List.rel_append hspells hspells'⟩
  · rw [Nat.add_comm n, ← Nat.add_assoc, h.run_eq, h'.run_eq]
  · rw [htokens', htokens, List.reverse_append, List.append_assoc]

/-- A state outside brackets in front of a word that may be a key, or of the end of the text. -/
structure Before (s : Lexer) (p : Place) : Prop where
  isOutside : s.brackets = []
  isRunning : s.isDone = false
  gap : ∃ hasBreak, s.place.gap false = ⟨none, hasBreak, p⟩ ∧ (s.mayStartKey || hasBreak) = true
  keys : ∃ key?, s.keys = [key?] ∧ ∀ key ∈ key?, isStale p key ∧ key.isRequired = false

/-- A state behind the colon of a key. -/
structure Behind (s : Lexer) (indents : List Int) (rest : List Char) : Prop where
  isOutside : s.brackets = []
  isRunning : s.isDone = false
  keys_eq : s.keys = [none]
  indents_eq : s.indent :: s.indents = indents
  rest_eq : s.place.rest = rest
  isInside : s.indent < s.place.column

end Lexer

/-! ## 7. Texts -/

end LinearExecutable.Document
