import LinearExecutable.Document.Scalar

/-!
# Nodes

A node is a part of a document as it is written: scalars are not interpreted yet, and aliases stand
for nodes that come before them.
-/

namespace LinearExecutable.Document

/-- What stands in front of a node. -/
structure NodeHead where
  /-- The number of the node, if it has an anchor. -/
  anchor? : Option Nat
  tag? : Option Tag
  deriving DecidableEq, Repr

inductive Node where
  | scalar (head : NodeHead) (w : Wording) (isPlain : Bool)
  | list (head : NodeHead) (items : List Node)
  | mapping (head : NodeHead) (entries : List (Node × Node))
  /-- An alias, and the node that comes before and that it stands for. -/
  | reference (target : Node)
  /-- The node with a number, which the alias is a part of. -/
  | cycle (number : Nat)
  deriving Repr

namespace Node

/-- A scalar that is not written. -/
def empty (head : NodeHead) : Node := .scalar head (.sound []) true

/-- A node that is not written. -/
def missing : Node := empty ⟨none, none⟩

end Node

end LinearExecutable.Document
