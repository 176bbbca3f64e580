import JasmineConversion.Entries
import JasmineConversion.Host.Yaml.Tag
import JasmineConversion.Host.Yaml.Token

/-! # Nodes of a YAML document

The nodes of a document form a graph: a node is a scalar, a sequence of nodes, or a mapping from
nodes to nodes, and an alias refers to a node that came before, which may be one around it.
-/

namespace JasmineConversion.Yaml

open Text

/-- The number of a node in its graph. -/
abbrev NodeId := Nat

/-- What a node holds. -/
inductive Shape where
  | scalar (content : Content)
  | sequence (items : List NodeId)
  | mapping (entries : List (NodeId × NodeId))

/-- A node of a document. -/
structure Node where
  tag : Tag
  shape : Shape

/-- The nodes of a document under their numbers. -/
abbrev Graph := Array Node

/-- Where the reading of nodes stands: the tokens left, the flaw behind them, the nodes so far,
those with anchors, and the meanings of the handles of tags. -/
structure NodeReader where
  tokens : List Token
  flaw : Flaw := .malformed
  nodes : Graph := #[]
  anchors : Entries Text NodeId := []
  handles : Entries Text Text := []

/-- A reading of nodes. -/
abbrev ReadNode := StateT NodeReader (Except Flaw)

namespace ReadNode

/-- The document is not well-formed here. -/
def malformed {α : Type} : ReadNode α :=
  throw .malformed

/-- The next token. Where there is none, the flaw that ended them shows. -/
def peek : ReadNode Token := do
  match (← get).tokens with
  | token :: _ => return token
  | [] => throw (← get).flaw

/-- Moves over a token. -/
def skip : ReadNode Unit :=
  modify fun reader => { reader with tokens := reader.tokens.drop 1 }

/-- Whether the next token is one of some. -/
def isNext (tokens : List Token) : ReadNode Bool := do
  return tokens.contains (← peek)

/-- Moves over a token if it is next, and tells whether it was. -/
def accept (token : Token) : ReadNode Bool := do
  if ← isNext [token] then
    skip
    return true
  else return false

/-- Moves over a token that has to be next. -/
def expect (token : Token) : ReadNode Unit := do
  if !(← accept token) then malformed

/-- Adds a node to the graph. -/
def add (node : Node) : ReadNode NodeId := do
  let nodes := (← get).nodes
  modify fun reader => { reader with nodes := nodes.push node }
  return nodes.size

/-- Sets what a node holds. -/
def fill (id : NodeId) (shape : Shape) : ReadNode Unit :=
  modify fun reader =>
    { reader with nodes := reader.nodes.modify id fun node => { node with shape } }

/-- The node of an empty place. -/
def empty : ReadNode NodeId :=
  add ⟨.null, .scalar (.text [])⟩

/-- Reads items for as long as there are some. -/
def many {α : Type} (item : ReadNode (Option α)) : (bound : Nat) → ReadNode (List α)
  | 0 => malformed
  | bound + 1 => do
    match ← item with
    | none => return []
    | some found => return found :: (← many item bound)

/-- Reads items for as long as there are some. Each takes up a token, so the number of these
bounds theirs. -/
def items {α : Type} (item : ReadNode (Option α)) : ReadNode (List α) := do
  many item ((← get).tokens.length + 1)

/-- Reads a node, unless one of some tokens is next. -/
def unlessNext (tokens : List Token) (node : ReadNode NodeId) : ReadNode NodeId := do
  if ← isNext tokens then empty else node

/-- Reads the entries of a block sequence. -/
def blockSequence (node : ReadNode NodeId) : ReadNode (List NodeId) := do
  let found ← items do
    if ← accept .blockEntry then
      return some (← unlessNext [.blockEntry, .blockEnd] node)
    else return none
  expect .blockEnd
  return found

/-- Reads the entries of a sequence that is not indented inside a mapping. -/
def plainSequence (node : ReadNode NodeId) : ReadNode (List NodeId) :=
  items do
    if ← accept .blockEntry then
      return some (← unlessNext [.blockEntry, .key, .value, .blockEnd] node)
    else return none

/-- Reads the value of an entry, if there is one. -/
def entryValue (ends : List Token) (node : ReadNode NodeId) : ReadNode NodeId := do
  if ← accept .value then unlessNext ends node else empty

/-- Reads the entries of a block mapping. -/
def blockMapping (node : ReadNode NodeId) : ReadNode (List (NodeId × NodeId)) := do
  let ends := [Token.key, .value, .blockEnd]
  let found ← items do
    if ← accept .key then
      let key ← unlessNext ends node
      return some (key, ← entryValue ends node)
    else return none
  expect .blockEnd
  return found

/-- Reads the entries of a flow collection, separated by commas, up to its end. -/
def flowEntries {α : Type} (last : Token) (entry : ReadNode α) : ReadNode (List α) := do
  if ← accept last then return []
  else
    let first ← entry
    let rest ← items do
      if ← accept last then return none
      else
        expect .flowEntry
        if ← accept last then return none else return some (← entry)
    return first :: rest

/-- Reads an entry of a flow sequence: a node, or a mapping with one entry. -/
def flowItem (node : ReadNode NodeId) : ReadNode NodeId := do
  let ends := [Token.flowEntry, .flowSequenceEnd]
  if ← accept .key then
    let id ← add ⟨.mapping, .mapping []⟩
    let key ← unlessNext (.value :: ends) node
    fill id (.mapping [(key, ← entryValue ends node)])
    return id
  else node

/-- Reads an entry of a flow mapping. -/
def flowPair (node : ReadNode NodeId) : ReadNode (NodeId × NodeId) := do
  let ends := [Token.flowEntry, .flowMappingEnd]
  if ← accept .key then
    let key ← unlessNext (.value :: ends) node
    return (key, ← entryValue ends node)
  else
    let key ← node
    let _ ← peek
    return (key, ← empty)

/-- Reads an anchor, if there is one. -/
def anchor? : ReadNode (Option Text) := do
  match ← peek with
  | .anchor name =>
    skip
    return some name
  | _ => return none

/-- Reads a tag, if there is one. -/
def tag? : ReadNode (Option (Option Text × Text)) := do
  match ← peek with
  | .tag handle suffix =>
    skip
    return some (handle, suffix)
  | _ => return none

/-- The text of a tag. Its handle has to be known. -/
def tagText : Option Text × Text → ReadNode Text
  | (none, suffix) => return suffix
  | (some handle, suffix) => do
    match Entries.get? handle (← get).handles with
    | some meaning => return meaning ++ suffix
    | none => malformed

/-- Keeps a node under its anchor. -/
def keep (anchor : Option Text) (id : NodeId) : ReadNode Unit :=
  match anchor with
  | none => pure ()
  | some name =>
    modify fun reader => { reader with anchors := Entries.put name id reader.anchors }

/-- An anchor must not be there already. -/
def checkAnchor (anchor : Option Text) : ReadNode Unit := do
  let known := (← get).anchors
  if anchor.any fun name => (Entries.get? name known).isSome then malformed

/-- A tag that leaves the type of a node open. -/
def isOpen (tag : Option Text) : Bool :=
  tag.all (· = ['!'])

/-- The tag of a scalar. Its content tells it where it is open to that. -/
def scalarTag (tag : Option Text) (plain : Bool) (content : Content) : Tag :=
  match tag with
  | none => if plain then told content else .text
  | some name => if name = ['!'] then told content else .ofText name
where
  /-- The tag that a content tells. -/
  told : Content → Tag
    | .text value => PlainScalar.tag value
    | .codes _ => .text

/-- The tag of a collection. -/
def collectionTag (tag : Option Text) (usual : Tag) : Tag :=
  if isOpen tag then usual else .ofText (tag.getD [])

/-- Adds a scalar under its anchor. -/
def scalar (anchor tag : Option Text) (plain : Bool) (content : Content) : ReadNode NodeId := do
  checkAnchor anchor
  let id ← add ⟨scalarTag tag plain content, .scalar content⟩
  keep anchor id
  return id

/-- Adds a sequence under its anchor and reads its items. -/
def sequence (anchor tag : Option Text) (items : ReadNode (List NodeId)) : ReadNode NodeId := do
  checkAnchor anchor
  let id ← add ⟨collectionTag tag .sequence, .sequence []⟩
  keep anchor id
  fill id (.sequence (← items))
  return id

/-- Adds a mapping under its anchor and reads its entries. -/
def mapping (anchor tag : Option Text) (entries : ReadNode (List (NodeId × NodeId))) :
    ReadNode NodeId := do
  checkAnchor anchor
  let id ← add ⟨collectionTag tag .mapping, .mapping []⟩
  keep anchor id
  fill id (.mapping (← entries))
  return id

/-- Reads the content of a node behind its anchor and its tag. `node` reads a node inside it. -/
def content (node : (inBlock plainSequences : Bool) → ReadNode NodeId)
    (inBlock plainSequences : Bool) (anchor tag : Option Text) : ReadNode NodeId := do
  match ← peek with
  | .scalar found plain =>
    skip
    scalar anchor tag plain found
  | .flowSequenceStart =>
    skip
    sequence anchor tag (flowEntries .flowSequenceEnd (flowItem (node false false)))
  | .flowMappingStart =>
    skip
    mapping anchor tag (flowEntries .flowMappingEnd (flowPair (node false false)))
  | next =>
    if plainSequences && next == .blockEntry then
      sequence anchor tag (plainSequence (node true false))
    else if inBlock && next == .sequenceStart then
      skip
      sequence anchor tag (blockSequence (node true false))
    else if inBlock && next == .mappingStart then
      skip
      mapping anchor tag (blockMapping (node true true))
    else if anchor.isNone && tag.isNone then malformed
    else scalar anchor tag true (.text [])

/-- Reads a node. Each node inside another takes up a token, so the number of these bounds the
depth. -/
def node : (bound : Nat) → (inBlock plainSequences : Bool) → ReadNode NodeId
  | 0, _, _ => malformed
  | bound + 1, inBlock, plainSequences => do
    match ← peek with
    | .alias name =>
      skip
      match Entries.get? name (← get).anchors with
      | some found => return found
      | none => malformed
    | _ =>
      let first ← anchor?
      let written ← tag?
      let anchor ← if first.isSome || written.isNone then pure first else anchor?
      let tag ← written.mapM tagText
      content (node bound) inBlock plainSequences anchor tag

/-- Reads directives. There is at most one for the version, whose first number is one, and one
for each handle. -/
def directives : (bound : Nat) → (versioned : Bool) → ReadNode Unit
  | 0, _ => malformed
  | bound + 1, versioned => do
    match ← peek with
    | .version major =>
      if versioned || major != 1 then malformed
      skip
      directives bound true
    | .handle name meaning =>
      if (Entries.get? name (← get).handles).isSome then malformed
      skip
      modify fun reader => { reader with handles := Entries.put name meaning reader.handles }
      directives bound versioned
    | .directive =>
      skip
      directives bound versioned
    | _ => return

/-- Gives the usual meanings to the handles that have none. -/
def usualHandles : ReadNode Unit :=
  modify fun reader =>
    let add (name meaning : Text) (handles : Entries Text Text) :=
      if (Entries.get? name handles).isSome then handles else Entries.put name meaning handles
    { reader with
      handles := add "!".toList "!".toList (add "!!".toList Tag.lead reader.handles) }

/-- Whether a token is a directive. -/
def isDirective : Token → Bool
  | .version _ => true
  | .handle _ _ => true
  | .directive => true
  | _ => false

/-- Reads the content of a document. Behind an explicit beginning it may be empty. -/
def documentContent (bound : Nat) (explicit : Bool) : ReadNode NodeId := do
  let next ← peek
  let ended := isDirective next || [Token.documentStart, .documentEnd, .streamEnd].contains next
  if explicit && ended then empty else node bound true false

/-- Reads the end of the only document. Any number of marks may end it. -/
def documentEnd (bound : Nat) : ReadNode Unit := do
  let _ ← items do return if ← accept .documentEnd then some () else none
  if !(← isNext [.streamEnd]) then
    modify fun reader => { reader with handles := [] }
    directives bound false
    let _ ← peek
    malformed

/-- Reads the only document, if there is one. -/
def document : ReadNode (Option NodeId) := do
  let bound := (← get).tokens.length + 1
  let next ← peek
  if next == .streamEnd then return none
  else
    let explicit := isDirective next || next == .documentStart
    if explicit then
      directives bound false
      expect .documentStart
    usualHandles
    let root ← documentContent bound explicit
    documentEnd bound
    return some root

end ReadNode

/-- A graph and the number of the node that is its document. -/
structure Root where
  graph : Graph
  id : NodeId

/-- The node of the only document in a text, if there is a document. -/
def Root.read (pieces : Pieces) : Except Flaw (Option Root) := do
  let tokens := Tokens.scan pieces
  let start : NodeReader := { tokens := tokens.list, flaw := tokens.flaw.getD .malformed }
  let (found, reader) ← ReadNode.document start
  return found.map fun id => ⟨reader.nodes, id⟩

end JasmineConversion.Yaml
