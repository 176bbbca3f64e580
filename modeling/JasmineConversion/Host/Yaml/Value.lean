import JasmineConversion.Host.PlainValue
import JasmineConversion.Host.Yaml.Binary
import JasmineConversion.Host.Yaml.Node
import JasmineConversion.Host.Yaml.Number

/-! # Values of YAML nodes

Values are made of nodes from the outside in: first a collection, then what it holds, in the order
in which the collections were met. The node of an alias gives one value. Before a mapping is
read, the entries of the mappings merged into it are put in front of its own.
-/

namespace JasmineConversion.Yaml

open Text

/-- A value of a document. What a collection holds is read later. -/
inductive Value where
  | simple (value : SettingValue PlainValue)
  | moment
  | collection (isMapping : Bool)

namespace Value

/-- The value as that of a setting. -/
def toSetting : Value → SettingValue PlainValue
  | simple value => value
  | _ => .other .foreign

/-- Whether a value can be a key. -/
def isKey : Value → Bool
  | collection _ => false
  | _ => true

/-- The name that a key gives. A key that is no text gives none. -/
def name? : Value → Option Text
  | simple (.string codes) =>
    match Content.ofCodes codes with
    | .text name => some name
    | .codes _ => none
  | _ => none

end Value

/-- Where the reading of values stands: the nodes, the values of some of them, and the collections
whose contents are still to be read. -/
structure ValueReader where
  graph : Graph
  values : Entries NodeId Value := []
  pending : List NodeId := []

/-- A reading of values. -/
abbrev ReadValue := StateT ValueReader (Except Flaw)

namespace ReadValue

/-- The document is not well-formed here. -/
def malformed {α : Type} : ReadValue α :=
  throw .malformed

/-- Goes on with the value of a text, if it has one. -/
def lift {α : Type} : Except ValueFault α → ReadValue α
  | .ok value => return value
  | .error fault => throw (.value fault)

/-- A node of the graph. -/
def node (id : NodeId) : ReadValue Node := do
  match (← get).graph[id]? with
  | some found => return found
  | none => malformed

/-- Changes a node of the graph. -/
def change (id : NodeId) (change : Node → Node) : ReadValue Unit :=
  modify fun reader => { reader with graph := reader.graph.modify id change }

/-! ## Scalars -/

/-- The first entry whose key has a tag. -/
def entryWith? (tag : Tag) : List (NodeId × NodeId) → ReadValue (Option NodeId)
  | [] => return none
  | (key, value) :: rest => do
    if (← node key).tag = tag then return some value else entryWith? tag rest

/-- The content of a scalar. In place of a scalar, a mapping may hold one as its default. A node
that is its own default has none, which the number of nodes tells. -/
def contentOf : (bound : Nat) → NodeId → ReadValue Content
  | 0, _ => throw (.value .endless)
  | bound + 1, id => do
    match (← node id).shape with
    | .scalar content => return content
    | .sequence _ => malformed
    | .mapping entries =>
      match ← entryWith? .default entries with
      | some value => contentOf bound value
      | none => malformed

/-- The truth value that codes stand for. -/
def truth (codes : List Nat) : Except ValueFault Bool :=
  let word := smallCodes codes
  if ["yes", "true", "on"].any (Number.codesOf · = word) then .ok true
  else if ["no", "false", "off"].any (Number.codesOf · = word) then .ok false
  else .error (.notTruth word)

/-- Reads a point in time. Nothing but a scalar can be one. -/
def moment : Shape → Except ValueFault Unit
  | .scalar (.text text) =>
    let text := if text.getLast? = some '\n' then text.dropLast else text
    match Moment.parse? text with
    | none => .error .notMoment
    | some found =>
      match found.fault? with
      | some fault => .error fault
      | none => .ok ()
  | .scalar (.codes _) => .error .notMoment
  | _ => .error .momentOfCollection

/-- The value of a content with the tag of a scalar. -/
def scalarValue (tag : Tag) (shape : Shape) (content : Content) : ReadValue Value := do
  match tag with
  | .null => return .simple .null
  | .boolean => return .simple (.boolean (← lift (truth content.toCodes)))
  | .integer => return .simple (.integer (← lift (Number.integer content.toCodes)))
  | .fraction => return .simple (.other (.fraction (← lift (Number.fraction content.toCodes))))
  | .moment => do
    lift (moment shape)
    return .moment
  | .binary =>
    match content with
    | .text text =>
      match Binary.read? text with
      | some bytes => return .simple (.other (.bytes bytes))
      | none => malformed
    | .codes _ => malformed
  | _ => return .simple (.string content.toCodes)

/-! ## Nodes -/

/-- The value of a node by its tag. The contents of a collection are left for later. -/
def made (id : NodeId) : ReadValue Value := do
  let found ← node id
  match found.tag with
  | .merge => malformed
  | .default => malformed
  | .other => malformed
  | .mapping => later true
  | .sequence => later false
  | .set => later false
  | .orderedMap => later false
  | .pairs => later false
  | tag => do
    let content ← contentOf ((← get).graph.size + 1) id
    scalarValue tag found.shape content
where
  /-- A collection whose contents are read later. -/
  later (isMapping : Bool) : ReadValue Value := do
    modify fun reader => { reader with pending := reader.pending ++ [id] }
    return .collection isMapping

/-- The value of a node, which is made once. -/
def value (id : NodeId) : ReadValue Value := do
  match Entries.get? id (← get).values with
  | some known => return known
  | none => do
    let made ← made id
    modify fun reader => { reader with values := (id, made) :: reader.values }
    return made

/-! ## Merged mappings -/

/-- The entries of a mapping. -/
def entriesOf (id : NodeId) : ReadValue (List (NodeId × NodeId)) := do
  match (← node id).shape with
  | .mapping entries => return entries
  | _ => malformed

/-- Sets the entries of a mapping. -/
def setEntries (id : NodeId) (entries : List (NodeId × NodeId)) : ReadValue Unit :=
  change id fun node => { node with shape := .mapping entries }

/-- The entries that the value of a merge brings, when `flatten` has merged the mappings in it. The
first mapping of a sequence counts most, so that its entries come last. -/
def broughtBy (flatten : NodeId → ReadValue Unit) (id : NodeId) :
    ReadValue (List (NodeId × NodeId)) := do
  match (← node id).shape with
  | .scalar _ => malformed
  | .mapping _ => do
    flatten id
    entriesOf id
  | .sequence items => do
    let found ← items.mapM fun item => do
      let _ ← entriesOf item
      flatten item
      entriesOf item
    return found.reverse.flatten

/-- The first merge among entries, the first of which has a number: its number and its value. The
keys of defaults before it become texts. -/
def nextMerge? : (index : Nat) → List (NodeId × NodeId) → ReadValue (Option (Nat × NodeId))
  | _, [] => return none
  | index, (key, value) :: rest => do
    match (← node key).tag with
    | .merge => return some (index, value)
    | .default => do
      change key fun node => { node with tag := .text }
      nextMerge? (index + 1) rest
    | _ => nextMerge? (index + 1) rest

/-- Takes the merges out of a mapping from the entry with a number on, and collects the entries that
they bring. -/
def takeMerges (flatten : NodeId → ReadValue Unit) (id : NodeId) :
    (bound index : Nat) → ReadValue (List (NodeId × NodeId))
  | 0, _ => return []
  | bound + 1, index => do
    let entries ← entriesOf id
    match ← nextMerge? index (entries.drop index) with
    | none => return []
    | some (place, value) => do
      setEntries id (entries.eraseIdx place)
      let brought ← broughtBy flatten value
      return brought ++ (← takeMerges flatten id bound place)

/-- Puts the entries that are merged into a mapping in front of its own. A merge is taken out before
its value is looked at, so the number of entries in the graph bounds both their number and the
depth. -/
def flatten : (bound : Nat) → NodeId → ReadValue Unit
  | 0, _ => return
  | bound + 1, id => do
    let brought ← takeMerges (flatten bound) id (bound + 1) 0
    if !brought.isEmpty then setEntries id (brought ++ (← entriesOf id))

/-- The number of entries in a graph. -/
def entryCount (graph : Graph) : Nat :=
  graph.foldl (fun count node => match node.shape with
    | .mapping entries => count + entries.length
    | _ => count) 0

/-! ## Collections -/

/-- Reads the entries of a mapping. -/
def mappingEntries (id : NodeId) : ReadValue (List (Value × Value)) := do
  let _ ← entriesOf id
  flatten (entryCount (← get).graph + 1) id
  (← entriesOf id).mapM fun (keyId, valueId) => do
    let key ← value keyId
    if !key.isKey then malformed
    return (key, ← value valueId)

/-- Reads the items of a sequence. -/
def sequenceItems (id : NodeId) : ReadValue Unit := do
  match (← node id).shape with
  | .sequence items =>
    for item in items do
      let _ ← value item
  | _ => malformed

/-- Reads a sequence of mappings with one entry each. -/
def pairItems (id : NodeId) : ReadValue Unit := do
  match (← node id).shape with
  | .sequence items =>
    for item in items do
      match (← node item).shape with
      | .mapping [(key, found)] => do
        let _ ← value key
        let _ ← value found
      | _ => malformed
  | _ => malformed

/-- Reads what a collection holds. Only a mapping gives entries. -/
def contents (id : NodeId) : ReadValue (List (Value × Value)) := do
  match (← node id).tag with
  | .sequence => do
    sequenceItems id
    return []
  | .orderedMap => do
    pairItems id
    return []
  | .pairs => do
    pairItems id
    return []
  | _ => mappingEntries id

/-- Reads the contents of all collections that are still to be read. Each node is read once, so the
number of nodes bounds theirs. -/
def finish : (bound : Nat) → ReadValue Unit
  | 0 => return
  | bound + 1 => do
    match (← get).pending with
    | [] => return
    | id :: rest => do
      modify fun reader => { reader with pending := rest }
      let _ ← contents id
      finish bound

/-- Reads the value of a node and the entries that it holds. -/
def document (id : NodeId) : ReadValue (Value × List (Value × Value)) := do
  let root ← value id
  let entries ← match (← get).pending with
    | [] => pure []
    | _ => do
      modify fun reader => { reader with pending := [] }
      contents id
  finish ((← get).graph.size + 1)
  return (root, entries)

end ReadValue

/-- What a flaw is for those that have the document read. -/
def Flaw.toDocument : Flaw → DocumentFlaw
  | malformed => .malformed
  | encoding error => .encoding error
  | value fault => .mistaken ⟨fault.kind, fault.message⟩

/-- What a document with a value and its entries holds. -/
def documentOf (value : Value) (entries : List (Value × Value)) : Document PlainValue :=
  match value with
  | .simple .null => .nothing
  | .collection true =>
    .settings (entries.reverse.filterMap fun (key, value) =>
      key.name?.map fun name => (name, value.toSetting))
  | _ => .other

/-- Reads the only document in the text of a file. The last value under a name counts. -/
def readDocument (content : List UInt8) : Except DocumentFlaw (Document PlainValue) :=
  let found : Except Flaw (Document PlainValue) := do
    match ← Root.read (Stream.pieces content) with
    | none => return .nothing
    | some root =>
      let ((value, entries), _) ← ReadValue.document root.id { graph := root.graph }
      return documentOf value entries
  found.mapError Flaw.toDocument

end JasmineConversion.Yaml
