import TypedClient.Yaml.Node
import TypedClient.Yaml.ScalarValue

/-!
# Documents from YAML

A YAML text as a document graph. Every node has one value, wherever it stands. A scalar is read when
it is first met; the parts of a collection are read later, in the order in which the collections
were met. The values of merge keys come before the entries of the mapping around them, which
override them.
-/
namespace TypedClient.Yaml

/-- The document being built. -/
structure Construction where
  /-- The nodes, in which merge keys give way to the entries that they stand for. -/
  nodes : Array Node
  /-- The values of the nodes met so far. -/
  values : Array (Option Value)
  /-- The collections met so far, in order, each with its place in the graph. -/
  collections : Array (NodeId × NodeId) := #[]
  graph : Graph := Graph.empty

abbrev Construct := StateT Construction (Except Fault)

namespace Construct

def node (id : NodeId) : Construct Node := do
  match (← get).nodes[id]? with
  | some n => return n
  | none => throw .invalid

def kind? (id : NodeId) : Construct (Option Kind) := return (← node id).kind

def setNode (id : NodeId) (n : Node) : Construct Unit :=
  modify fun c => { c with nodes := c.nodes.setIfInBounds id n }

/-- The entries of a node that has to be a mapping. -/
def entriesOf (id : NodeId) : Construct (List (NodeId × NodeId)) := do
  match (← node id).content with
  | .mapping entries => return entries
  | _ => throw .invalid

/-- The items of a node that has to be a sequence. -/
def itemsOf (id : NodeId) : Construct (List NodeId) := do
  match (← node id).content with
  | .sequence items => return items
  | _ => throw .invalid

section Merging

/-- Makes the keys `=` of a mapping texts. -/
def readDefaultKeys (entries : List (NodeId × NodeId)) : Construct Unit :=
  entries.forM fun e => do
    let n ← node e.1
    if n.kind = some .default then setNode e.1 { n with kind := some .text }

/-- The entries around the first merge key: those before it, its value, those behind it. -/
def cutAtMergeKey :
    List (NodeId × NodeId) →
      Construct (Option (List (NodeId × NodeId) × NodeId × List (NodeId × NodeId)))
  | [] => return none
  | e :: rest => do
    if (← kind? e.1) = some .merge then return some ([], e.2, rest)
    else
      let found ← cutAtMergeKey rest
      return found.map fun (before, target, after) => (e :: before, target, after)

/-- The nodes that a merge key names: one mapping, or several of which an earlier one overrides a
later one. -/
def mergeSources (target : NodeId) : Construct (List NodeId) := do
  match (← node target).content with
  | .mapping _ => return [target]
  | .sequence items => return items
  | .scalar _ => throw .invalid

/-- Puts the entries that merge keys stand for before the other entries of a mapping. Every step
takes a merge key away. -/
def merge : Nat → List (NodeId × NodeId) → NodeId → Construct Unit
  | 0, _, _ => throw .invalid
  | budget + 1, merged, id => do
    let entries ← entriesOf id
    readDefaultKeys entries
    let n ← node id
    match ← cutAtMergeKey entries with
    | none => setNode id { n with content := .mapping (merged ++ entries) }
    | some (before, target, after) => do
      setNode id { n with content := .mapping (before ++ after) }
      let parts ← (← mergeSources target).mapM fun source => do
        merge budget [] source
        entriesOf source
      merge budget (merged ++ parts.reverse.flatten) id

def countEntries (nodes : Array Node) : Nat :=
  nodes.foldl (fun n node =>
    match node.content with
    | .mapping entries => n + entries.length
    | _ => n) 0

/-- The entries of a mapping with merged ones before its own. -/
def mergedEntries (id : NodeId) : Construct (List (NodeId × NodeId)) := do
  merge (countEntries (← get).nodes + 1) [] id
  entriesOf id

end Merging

section Scalars

/-- The text of a scalar. A mapping has the text of its key `=`. -/
def scalarText : Nat → NodeId → Construct String
  | 0, _ => throw (.malformed .endless)
  | budget + 1, id => do
    match (← node id).content with
    | .scalar text => return text
    | .sequence _ => throw .invalid
    | .mapping entries => do
      let stated ← entries.filterM fun e => return (← kind? e.1) = some .default
      match stated with
      | e :: _ => scalarText budget e.2
      | [] => throw .invalid

/-- The value of a scalar. One that is not a number is told from others by its node. -/
def scalarValue (id : NodeId) (n : Node) : Kind → Construct Scalar
  | .merge | .default => throw .invalid
  | kind => do
    let text ← scalarText ((← get).nodes.size + 1) id
    match kind, n.content with
    | .timestamp, .mapping _ => throw (.malformed .nestedMoment)
    | _, _ => ScalarValue.ofKind (id + 1) text kind

end Scalars

/-- What a collection is before its parts are read. -/
def emptyNode : Kind → TypedClient.Node
  | .mapping => .mapping []
  | .set => .set []
  | _ => .list []

/-- Gives a collection its place in the graph, to be filled later. -/
def addCollection (id : NodeId) (kind : Kind) : Construct Value :=
  modifyGet fun c =>
    let place := c.graph.nodes.size
    let (graph, v) := c.graph.add (emptyNode kind)
    (v, { c with graph := graph, collections := c.collections.push (id, place) })

/-- The value of a node, the same each time it is met. -/
def value (id : NodeId) : Construct Value := do
  match (← get).values[id]?.join with
  | some v => return v
  | none => do
    let n ← node id
    let v ←
      match n.kind with
      | none => throw .invalid
      | some kind =>
        if kind.isContainer then addCollection id kind
        else pure (.scalar (← scalarValue id n kind))
    modify fun c => { c with values := c.values.setIfInBounds id (some v) }
    return v

/-- An entry of a mapping. Only scalars can be keys. -/
def entry (e : NodeId × NodeId) : Construct (Scalar × Value) := do
  match ← value e.1 with
  | .scalar key => return (key, ← value e.2)
  | .node _ => throw .invalid

/-- A pair from a mapping that has to have one entry. -/
def pair (id : NodeId) : Construct Value := do
  match ← entriesOf id with
  | [(key, member)] => do
    let first ← value key
    let second ← value member
    modifyGet fun c =>
      let (graph, v) := c.graph.add (.pair first second)
      (v, { c with graph := graph })
  | _ => throw .invalid

/-- The parts of a collection. -/
def parts (id : NodeId) : Kind → Construct TypedClient.Node
  | .sequence => return .list (← (← itemsOf id).mapM value)
  | .pairs => return .list (← (← itemsOf id).mapM pair)
  | .mapping => return .mapping (Entries.ofList (← (← mergedEntries id).mapM entry))
  | .set => return .set (Entries.keys (Entries.ofList (← (← mergedEntries id).mapM entry)))
  | _ => throw .invalid

/-- Fills a collection. -/
def fill (id place : NodeId) : Construct Unit := do
  match ← kind? id with
  | none => throw .invalid
  | some kind => do
    let n ← parts id kind
    modify fun c => { c with graph := c.graph.set place n }

/-- Fills the collections from the given one on, each once. -/
def fillFrom : Nat → Nat → Construct Unit
  | 0, _ => return
  | budget + 1, next => do
    match (← get).collections[next]? with
    | none => return
    | some (id, place) => do
      fill id place
      fillFrom budget (next + 1)

/-- The value of the root, with everything in it. -/
def document (root : NodeId) : Construct Value := do
  let v ← value root
  fillFrom (← get).nodes.size 0
  return v

end Construct

/-- The document that a text writes; an empty text writes null. -/
def read (text : String) : Except Fault (Graph × Value) := do
  match ← Node.ofTokens? (← Token.scan text) with
  | none => return (Graph.empty, .null)
  | some (nodes, root) => do
    let start : Construction := { nodes := nodes, values := nodes.map fun _ => none }
    let (v, c) ← (Construct.document root).run start
    return (c.graph, v)

end TypedClient.Yaml
