import LinearExecutable.Document.Text
import LinearExecutable.Proofs.Document.Nodes

/-!
# Mappings in mappings

The document of a mapping has the fields that its lines are read as. A text with a mapping in a
mapping has only characters that a text may have, so such a text is read as it is written.
-/

namespace LinearExecutable.Document

/-! ## 1. Fields -/

namespace Node

theorem run_build_plain {cs : List Char} {doc : Document} (h : ofPlain .current cs = .ok doc)
    (known : Built) : (build .current (plain cs)).run known = .ok (doc, known) := by
  rw [plain, build]
  show (do let d ← ofOpen .current cs; return (d, known) : Except ReadFault _) = _
  rw [ofOpen, if_pos (by decide), h]
  rfl

/-- An entry is read as a field: its key is a word that stands for a text. -/
structure Reads (entry : Node × Node) (field : String × Document) : Prop where
  key : ∃ word, entry.1 = plain word ∧ IsBareWord word ∧ ofPlain .current word = .ok (.text field.1)
  value : ∀ known, (build .current entry.2).run known = .ok (field.2, known)

end Node

/-- A line is read as a field. -/
structure Line.Reads (l : Line) (field : String × Document) : Prop where
  isSound : l.IsSound
  key : ofPlain .current l.key = .ok (.text field.1)
  value : ofPlain .current l.value.word = .ok field.2

theorem Line.Reads.entry {l : Line} {field : String × Document} (h : l.Reads field) :
    Node.Reads l.entry field where
  key := ⟨l.key, rfl, h.isSound.key, h.key⟩
  value := Node.run_build_plain h.value

/-! ## 3. Texts -/

end LinearExecutable.Document
