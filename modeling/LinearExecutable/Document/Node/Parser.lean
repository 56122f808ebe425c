import LinearExecutable.Document.Node.Basic
import LinearExecutable.Document.Token.Basic

/-!
# From tokens to nodes

Every function reads the node, or the part of a node, that starts at the first token. Tokens that
are no part of a node hand their comments to the token behind them. `steps` bounds the depth of the
reading; eight times the number of tokens is never used up.
-/

namespace LinearExecutable.Document

/-- A node that an alias can name. -/
inductive Named where
  /-- The node is not complete yet. -/
  | started (number : Nat)
  | complete (node : Node)
  deriving Repr

/-- What remains of the tokens, and what is known from those in front. -/
structure Reading where
  tokens : List Token
  edition : Edition
  handles : Handles
  /-- The nodes with anchors, by name, the last one first. -/
  named : List (List Char × Named)
  /-- The number of anchors. -/
  count : Nat
  deriving Repr

/-- A step of reading nodes. -/
abbrev Reader := StateT Reading (Except ReadFault)

namespace Reader

/-- The next token. -/
def peek : Reader Token := do
  match (← get).tokens with
  | t :: _ =>
    match t.symbol with
    | .broken fault => throw fault
    | _ => return t
  | [] => throw .malformed

/-- Whether the next token is one of some symbols. -/
def sees (symbols : List Symbol) : Reader Bool := do
  return symbols.contains (← peek).symbol

/-- Takes the next token. -/
def take : Reader Token := do
  let t ← peek
  modify fun s => { s with tokens := s.tokens.tail }
  return t.taken

/-- Takes the next token if it is the given one. -/
def takes (symbol : Symbol) : Reader Bool := do
  if (← peek).symbol = symbol then
    let _ ← take
    return true
  else return false

/-- Takes the comma in front of a part between brackets that is not the first one. -/
def separate (isFirst : Bool) : Reader Unit :=
  if isFirst then return ()
  else do
    if ← takes .comma then return () else throw .malformed

/-- Changes the remarks of the next token. -/
def setRemarks (remarks? : Option Remarks) : Reader Unit :=
  modify fun s =>
    match s.tokens with
    | t :: rest => { s with tokens := { t with remarks? := remarks? } :: rest }
    | [] => s

/-- Hands the comments of a token to the next one. What stands behind a colon is kept twice. Nothing
is handed to the start of a document or the end of the text. -/
def hand (t : Token) (isBehindColon : Bool) : Reader Unit := do
  let next ← peek
  match t.remarks?, next.symbol, next.remarks? with
  | none, _, _ | _, .textEnd, _ | _, .documentStart, _ => return ()
  | some moved, _, none =>
    setRemarks (some (if isBehindColon then { moved with again? := some moved.behind? } else moved))
  | some moved, _, some kept =>
    match moved.join? kept with
    | some joined => setRemarks (some joined)
    | none => throw (.collision moved kept)

/-- Takes the next token and hands its comments on. -/
def takeOver : Reader Token := do
  let t ← take
  hand t false
  return t

/-- The same, but comments that collide stay behind. -/
def takeOverIfClear : Reader Token := do
  let t ← take
  let s ← get
  match (hand t false).run s with
  | .ok (_, s) => set s
  | .error (.collision _ _) => pure ()
  | .error fault => throw fault
  return t

/-! ## What stands in front of a node -/

/-- Starts a node with a name. -/
def start (name : List Char) : Reader Nat := do
  let s ← get
  set { s with named := (name, .started s.count) :: s.named, count := s.count + 1 }
  return s.count

/-- Completes the node with a number. -/
def complete (number : Nat) (node : Node) : Reader Unit :=
  modify fun s => { s with
    named := s.named.map fun (name, named) =>
      match named with
      | .started n => (name, if n = number then .complete node else named)
      | .complete _ => (name, named) }

/-- Completes a node that has an anchor. -/
def finish (head : NodeHead) (node : Node) : Reader Node := do
  match head.anchor? with
  | some number => complete number node
  | none => pure ()
  return node

/-- The node that an alias stands for. -/
def named (name : List Char) : Reader Node := do
  match (← get).named.lookup name with
  | some (.started number) => return .cycle number
  | some (.complete node) => return .reference node
  | none => throw .malformed

/-- The tag at the next token, if there is one, with its comments handed on or not. -/
def tag? (handsOn : Bool) : Reader (Option WrittenTag) := do
  match (← peek).symbol with
  | .tag written =>
    let _ ← if handsOn then takeOverIfClear else take
    return some written
  | _ => return none

/-- The anchor at the next token, if there is one. -/
def anchor? (handsOn : Bool) : Reader (Option (List Char)) := do
  match (← peek).symbol with
  | .anchor name =>
    let _ ← if handsOn then takeOver else take
    return some name
  | _ => return none

/-- The anchor and the tag in front of a node, in either order. -/
def head : Reader NodeHead := do
  let early? ← anchor? true
  let written? ← tag? early?.isNone
  let late? ← if early?.isNone && written?.isSome then anchor? false else pure none
  let handles := (← get).handles
  let tag? ← match written? with
    | none => pure none
    | some written =>
      match written.resolve? handles with
      | some tag => pure (some tag)
      | none => throw .malformed
  let anchor? ← match early? <|> late? with
    | some name => some <$> start name
    | none => pure none
  return ⟨anchor?, tag?⟩

/-- A scalar whose meaning depends on its form has one only in a known edition. -/
def checkEdition (head : NodeHead) (isPlain : Bool) : Reader Unit := do
  let e := (← get).edition
  let isOpen := match head.tag? with
    | some tag => tag.isOpen
    | none => isPlain
  if isOpen && e ≠ .current && e ≠ .former then throw (.unknownEdition e.major e.minor)

/-- A node that is not written. -/
def missing : Reader Node := do
  checkEdition ⟨none, none⟩ true
  return .missing

/-! ## Nodes -/

mutual

/-- A node. Outside brackets lists and mappings may be arranged by columns, and in the place of a
value a list may start in the column of its key. -/
def node (steps : Nat) (isBlock isValue : Bool) : Reader Node :=
  match steps with
  | 0 => throw .malformed
  | steps + 1 => do
    match (← peek).symbol with
    | .reference name =>
      let _ ← takeOver
      named name
    | _ =>
      let head ← head
      let next ← peek
      match next.symbol, isBlock with
      | .dash, _ =>
        if isValue then
          setRemarks (next.remarks?.map fun r => { r with behind? := none })
          finish head (.list head (← flushItems steps []))
        else bare head
      | .scalar w isPlain, _ =>
        let _ ← take
        checkEdition head isPlain
        finish head (.scalar head w isPlain)
      | .openList, _ =>
        let _ ← take
        finish head (.list head (← flowItems steps [] true))
      | .openMapping, _ =>
        let _ ← take
        finish head (.mapping head (← flowEntries steps [] true))
      | .listStart, true =>
        let _ ← take
        finish head (.list head (← blockItems steps []))
      | .mappingStart, true =>
        let _ ← take
        finish head (.mapping head (← blockEntries steps []))
      | _, _ => bare head
where
  /-- A node of which only what stands in front is written. -/
  bare (head : NodeHead) : Reader Node := do
    if head.anchor?.isNone && head.tag?.isNone then throw .malformed
    checkEdition head true
    finish head (.empty head)

/-- The items of a list, behind those in `items`. -/
def blockItems (steps : Nat) (items : List Node) : Reader (List Node) :=
  match steps with
  | 0 => throw .malformed
  | steps + 1 => do
    if ← sees [.dash] then
      let _ ← takeOver
      let item ← if ← sees [.dash, .blockEnd] then missing else node steps true false
      blockItems steps (items ++ [item])
    else if ← takes .blockEnd then return items
    else throw .malformed

/-- The items of a list in the column of its key, behind those in `items`. -/
def flushItems (steps : Nat) (items : List Node) : Reader (List Node) :=
  match steps with
  | 0 => throw .malformed
  | steps + 1 => do
    if ← sees [.dash] then
      let _ ← takeOver
      let item ← if ← sees [.dash, .keyMark, .valueMark, .blockEnd] then missing
        else node steps true false
      flushItems steps (items ++ [item])
    else return items

/-- The entries of a mapping, behind those in `entries`. -/
def blockEntries (steps : Nat) (entries : List (Node × Node)) : Reader (List (Node × Node)) :=
  match steps with
  | 0 => throw .malformed
  | steps + 1 => do
    if ← sees [.keyMark] then
      let _ ← takeOver
      let key ← if ← sees [.keyMark, .valueMark, .blockEnd] then missing else node steps true true
      let value ← blockValue steps
      blockEntries steps (entries ++ [(key, value)])
    else if (← get).edition.isLater && (← sees [.valueMark]) then
      let key ← missing
      let value ← blockValue steps
      blockEntries steps (entries ++ [(key, value)])
    else if ← sees [.blockEnd] then
      let _ ← takeOver
      return entries
    else throw .malformed

/-- The value behind a key, which may be missing. -/
def blockValue (steps : Nat) : Reader Node :=
  match steps with
  | 0 => throw .malformed
  | steps + 1 => do
    if ← sees [.valueMark] then
      let colon ← take
      if ← sees [.keyMark] then missing
      else
        hand colon (!(← sees [.valueMark]))
        if ← sees [.valueMark, .blockEnd] then
          let next ← peek
          setRemarks (next.remarks?.map fun r => ⟨none, r.front, none⟩)
          missing
        else node steps true true
    else missing

/-- The items of a list between brackets, behind those in `items`. -/
def flowItems (steps : Nat) (items : List Node) (isFirst : Bool) : Reader (List Node) :=
  match steps with
  | 0 => throw .malformed
  | steps + 1 => do
    if ← takes .closeList then return items
    else
      separate isFirst
      if ← takes .keyMark then
        let key ← if ← sees [.valueMark, .comma, .closeList] then missing
          else node steps false false
        let value ← flowValue steps .closeList
        flowItems steps (items ++ [.mapping ⟨none, none⟩ [(key, value)]]) false
      else if ← takes .closeList then return items
      else
        let item ← node steps false false
        flowItems steps (items ++ [item]) false

/-- The entries of a mapping between braces, behind those in `entries`. -/
def flowEntries (steps : Nat) (entries : List (Node × Node)) (isFirst : Bool) :
    Reader (List (Node × Node)) :=
  match steps with
  | 0 => throw .malformed
  | steps + 1 => do
    if ← takes .closeMapping then return entries
    else
      separate isFirst
      if ← takes .keyMark then
        let key ← if ← sees [.valueMark, .comma, .closeMapping] then missing
          else node steps false false
        let value ← flowValue steps .closeMapping
        flowEntries steps (entries ++ [(key, value)]) false
      else if (← get).edition.isLater && (← sees [.valueMark]) then
        let key ← missing
        let value ← flowValue steps .closeMapping
        flowEntries steps (entries ++ [(key, value)]) false
      else if ← takes .closeMapping then return entries
      else
        let key ← node steps false false
        let value ← missing
        flowEntries steps (entries ++ [(key, value)]) false

/-- The value behind a key between brackets, which may be missing. -/
def flowValue (steps : Nat) (closing : Symbol) : Reader Node :=
  match steps with
  | 0 => throw .malformed
  | steps + 1 => do
    if ← takes .valueMark then
      if ← sees [.comma, closing] then missing else node steps false false
    else missing

end

/-! ## Documents -/

/-- Takes the directives in front of a document; there is at most one edition, and one meaning for
a handle. -/
def directives (steps : Nat) (edition? : Option Edition) (handles : Handles) : Reader Unit :=
  match steps with
  | 0 => throw .malformed
  | steps + 1 => do
    match (← peek).symbol with
    | .directive d =>
      let _ ← take
      match d with
      | .edition e =>
        if edition?.isSome || e.major ≠ 1 then throw .malformed
        directives steps (some e) handles
      | .handle handle start =>
        if (handles.lookup handle).isSome then throw .malformed
        directives steps edition? (handles ++ [(handle, start)])
      | .other => directives steps edition? handles
    | _ =>
      modify fun s => { s with
        edition := edition?.getD s.edition
        handles := handles ++ Handles.standard }

/-- The node of a text, behind which the text ends; none if there is nothing to read. -/
def document (steps : Nat) : Reader (Option Node) := do
  if ← sees [.textEnd] then return none
  let isMarked := match (← peek).symbol with
    | .directive _ | .documentStart => true
    | _ => false
  let content ← do
    if isMarked then
      directives steps none []
      if !(← takes .documentStart) then throw .malformed
      match (← peek).symbol with
      | .directive _ | .documentStart | .documentEnd | .textEnd => missing
      | _ => node steps true false
    else node steps true false
  let _ ← takes .documentEnd
  if ← sees [.textEnd] then return some content else throw .malformed

end Reader

/-- The node of a list of tokens, if there is one, and the edition that it is written in. -/
def Node.ofTokens (tokens : List Token) : Except ReadFault (Option (Edition × Node)) := do
  let s : Reading := ⟨tokens, .current, .standard, [], 0⟩
  let (node?, s) ← (Reader.document (8 * tokens.length + 8)).run s
  return node?.map (s.edition, ·)

end LinearExecutable.Document
