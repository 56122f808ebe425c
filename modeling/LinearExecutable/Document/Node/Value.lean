import LinearExecutable.Document.Node.Basic

/-!
# From nodes to documents

The document of a node is built from its parts in their order. A node that has a number is built
once, and every alias of it is the same document. An alias within its own node has no document to
stand for yet and counts as null. The entries of the mappings under a merge key come behind those
of the mapping itself, unless their keys are there.
-/

namespace LinearExecutable.Document

/-! ## Entries -/

abbrev Entries := List (Document × Document)

/-- Adds an entry behind the others. A key is there only once. -/
def addEntry (entries : Entries) (key value : Document) : Except ReadFault Entries :=
  match keyFault? key with
  | some fault => .error fault
  | none =>
    if hasKey entries key then .error .malformed else .ok (entries ++ [(key, value)])

/-- Adds an entry that was written as a mapping of its own. Lists and mappings are no keys here. -/
def addOrdered (entries : Entries) (key value : Document) : Except ReadFault Entries :=
  match insideKeyFault? key with
  | some fault => .error fault
  | none => if hasKey entries key then .error .doubled else .ok (entries ++ [(key, value)])

/-- Adds the entries of other mappings whose keys are not there yet. -/
def addMerged (entries : Entries) : List Document → Except ReadFault Entries
  | [] => .ok entries
  | .mapping others :: merged =>
    addMerged (entries ++ others.filter fun (key, _) => !hasKey entries key) merged
  | _ :: _ => .error .selfMerge

/-- Adds an entry wherever it is, there may be others with its key. -/
def addPair (entries : Entries) (key value : Document) : Except ReadFault Entries :=
  .ok (entries ++ [(key, value)])

/-- Entries as lists of two. -/
def pairsOf (entries : Entries) : Document :=
  .list (entries.map fun (key, value) => .list [key, value])

/-! ## Documents by number -/

/-- The documents of the nodes that are built, by number. -/
abbrev Built := List (Nat × Document)

/-- A step of building documents. -/
abbrev Builder := StateT Built (Except ReadFault)

namespace Builder

/-- The document of a node, which is built only once if the node has a number. -/
def once (head : NodeHead) (document : Builder Document) : Builder Document := do
  match head.anchor? with
  | none => document
  | some number =>
    match (← get).lookup number with
    | some doc => return doc
    | none =>
      let doc ← document
      modify ((number, doc) :: ·)
      return doc

/-- The mapping of entries of its own and those of other mappings, which are built first. -/
def merge (others : Builder (List Document)) (own : Builder Entries) : Builder Document := do
  let merged ← others
  return .mapping (← addMerged (← own) merged)

/-- A step whose faults make a text malformed, whatever they are. -/
def strict {α : Type} (step : Builder α) : Builder α := fun s =>
  (step.run s).mapError fun _ => .malformed

end Builder

namespace Node

/-! ## Tags -/

/-- What the tag of a list or a mapping makes of its parts. -/
inductive Shape where
  /-- What is written. -/
  | written
  /-- The keys of a mapping. -/
  | keys
  /-- The entries of a list of mappings with one entry each. -/
  | ordered
  | pairs
  /-- What is written; the tag is not one of this notation. -/
  | foreign
  deriving DecidableEq, Repr

/-- The shapes of lists, if `isList`, or else of mappings that the tags of this notation name. -/
def shapeOfCore (isList isShort : Bool) (name : String) : Option Shape :=
  if name = "str" then if isShort then some .foreign else none
  else if ["null", "bool", "int", "float", "binary", "timestamp"].contains name then none
  else if isList then
    match name with
    | "seq" => some .written
    | "omap" => some .ordered
    | "pairs" => some .pairs
    | "map" | "set" => none
    | _ => some .foreign
  else
    match name with
    | "map" => some .written
    | "set" => some .keys
    | "seq" | "omap" | "pairs" => none
    | _ => some .foreign

/-- The shape of a list or a mapping. -/
def shapeOf (isList : Bool) (head : NodeHead) : Except ReadFault Shape :=
  match head.tag? with
  | none => .ok .written
  | some tag =>
    if tag.isOpen then .ok .written
    else
      match tag.coreName? with
      | none => .ok .foreign
      | some name =>
        match shapeOfCore isList tag.isShort name with
        | some shape => .ok shape
        | none => .error .malformed

/-- What a scalar stands for. -/
def scalarValue (e : Edition) (head : NodeHead) (w : Wording) (isPlain : Bool) :
    Except ReadFault Document :=
  match head.tag? with
  | some tag => if tag.isOpen then ofOpen e w.chars else ofTagged e tag w
  | none => if isPlain then ofOpen e w.chars else .ok w.text

/-! ## Keys -/

/-- A node without its alias. -/
def target : Node → Node
  | reference node => node
  | node => node

/-- Whether a scalar means more than its text: it is `word` without quotes, or its tag is `name`. -/
def isSpecial (word name : String) (head : NodeHead) (w : Wording) (isPlain : Bool) : Bool :=
  match head.tag? with
  | some tag =>
    if tag.isOpen then w = .sound word.toList else tag.coreName? = some name
  | none => isPlain && w = .sound word.toList

/-- Whether a key stands for the entries of other mappings. -/
def isMergeKey (node : Node) : Bool :=
  match node.target with
  | .scalar head w isPlain => isSpecial "<<" "merge" head w isPlain
  | _ => false

/-- The text of a scalar that has no other meaning as a key. -/
def textKey? (node : Node) : Option (NodeHead × Document) :=
  match node.target with
  | .scalar head w isPlain =>
    if isSpecial "=" "value" head w isPlain then some (head, w.text) else none
  | _ => none

/-- Whether a node is a mapping; one that is not complete is taken for one. -/
def isMapping (node : Node) : Bool :=
  match node.target with
  | .mapping _ _ | .cycle _ => true
  | _ => false

/-- Whether a node is a scalar. -/
def isScalar (node : Node) : Bool :=
  match node.target with
  | .scalar _ _ _ => true
  | _ => false

/-- The mappings that the value of a merge key stands for, one or a list of them. `doc` is the
document of the value. -/
def mergedOf (node : Node) (doc : Document) : Except ReadFault (List Document) :=
  match node.target, doc with
  | .list _ items, .list docs => if items.all isMapping then .ok docs else .error .malformed
  | _, _ => .ok [doc]

/-! ## Building -/

mutual

/-- The document of a node. -/
def build (e : Edition) (node : Node) : Builder Document :=
  match node with
  | .scalar head w isPlain => Builder.once head (scalarValue e head w isPlain)
  | .list head items => Builder.once head do
    match ← shapeOf true head with
    | .ordered => return .mapping (← buildSingles e addOrdered [] items)
    | .pairs => return pairsOf (← buildSingles e addPair [] items)
    | .foreign => return .list (← Builder.strict (buildItems e items))
    | _ => return .list (← buildItems e items)
  | .mapping head entries => Builder.once head do
    match ← shapeOf false head with
    | .keys => return .list ((← buildPairs e addEntry [] entries).map Prod.fst)
    | .foreign =>
      Builder.strict (Builder.merge (buildMerged e false entries) (buildEntries e [] entries))
    | _ => Builder.merge (buildMerged e false entries) (buildEntries e [] entries)
  | .reference target => build e target
  | .cycle number => return ((← get).lookup number).getD .null
termination_by structural node

/-- The documents of the items of a list. -/
def buildItems (e : Edition) (items : List Node) : Builder (List Document) :=
  match items with
  | [] => return []
  | item :: rest => return (← build e item) :: (← buildItems e rest)
termination_by structural items

/-- Adds the entries of a mapping as they are written. -/
def buildPairs (e : Edition) (add : Entries → Document → Document → Except ReadFault Entries)
    (built : Entries) (entries : List (Node × Node)) : Builder Entries :=
  match entries with
  | [] => return built
  | (key, value) :: rest => do
    let keyDoc ← build e key
    let valueDoc ← build e value
    buildPairs e add (← add built keyDoc valueDoc) rest
termination_by structural entries

/-- Adds the entry of a mapping that has only one. -/
def buildSingle (e : Edition) (add : Entries → Document → Document → Except ReadFault Entries)
    (built : Entries) (node : Node) : Builder Entries :=
  match node with
  | .mapping _ entries =>
    if entries.length = 1 then buildPairs e add built entries else throw .malformed
  | .reference target => buildSingle e add built target
  | _ => throw .malformed
termination_by structural node

/-- Adds the entries of mappings that have only one each. -/
def buildSingles (e : Edition) (add : Entries → Document → Document → Except ReadFault Entries)
    (built : Entries) (items : List Node) : Builder Entries :=
  match items with
  | [] => return built
  | item :: rest => do buildSingles e add (← buildSingle e add built item) rest
termination_by structural items

/-- Adds the entries of a mapping, what stands under its merge keys aside. -/
def buildEntries (e : Edition) (built : Entries) (entries : List (Node × Node)) :
    Builder Entries :=
  match entries with
  | [] => return built
  | (key, value) :: rest => do
    if key.isMergeKey then buildEntries e built rest
    else
      let keyDoc ← match key.textKey? with
        | some (head, doc) => Builder.once head (pure doc)
        | none => build e key
      let valueDoc ← build e value
      buildEntries e (← addEntry built keyDoc valueDoc) rest
termination_by structural entries

/-- The mappings under the merge keys of entries; `isDone` if there were some already. -/
def buildMerged (e : Edition) (isDone : Bool) (entries : List (Node × Node)) :
    Builder (List Document) :=
  match entries with
  | [] => return []
  | (key, value) :: rest => do
    if key.isMergeKey then
      if isDone || value.isScalar then throw .malformed
      let docs ← mergedOf value (← build e value)
      return docs ++ (← buildMerged e (!docs.isEmpty) rest)
    else buildMerged e isDone rest
termination_by structural entries

end

/-- A node without its number, and the number and what an alias of the node counts as within it as
long as it is not built. -/
def opened : Node → Node × Built
  | .list ⟨some number, tag?⟩ items => (.list ⟨none, tag?⟩ items, [(number, .list [])])
  | .mapping ⟨some number, tag?⟩ entries => (.mapping ⟨none, tag?⟩ entries, [(number, .mapping [])])
  | node => (node, [])

/-- The document of the node of a text. Aliases of the node within it are the document itself; of
the documents that are nested so the second one ends the nesting. -/
def document (e : Edition) (node : Node) : Except ReadFault Document := do
  let (bare, known) := node.opened
  let (doc, _) ← (build e bare).run known
  match known with
  | [] => return doc
  | _ => return (← (build e bare).run (known.map fun (number, _) => (number, doc))).1

end Node

end LinearExecutable.Document
