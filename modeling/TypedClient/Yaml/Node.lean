import TypedClient.Yaml.Kind
import TypedClient.Yaml.Token

/-!
# Nodes of YAML

The nodes that the tokens of one document describe, under identities in the order in which they
begin. An alias is the node of its anchor, so a node may stand in several places and within itself.
A text holds at most one document; an empty text has none.
-/
namespace TypedClient.Yaml

/-- What a node consists of. -/
inductive Content where
  | scalar (text : String)
  | sequence (items : List NodeId)
  | mapping (entries : List (NodeId × NodeId))
  deriving DecidableEq, Repr

structure Node where
  /-- The kind that its tag or its text gives it, if that has a meaning. -/
  kind : Option Kind
  content : Content
  deriving DecidableEq, Repr

/-- The greatest depth of nesting that is read. -/
def maxDepth : Nat := 490

/-- What is still to be read, and what has been: nodes and the anchors that can be referred to. -/
structure Builder where
  tokens : List Token
  nodes : Array Node := #[]
  anchors : List (String × NodeId) := []
  /-- How many more collections may be entered. -/
  depth : Nat := maxDepth

abbrev Build := StateT Builder (Except Fault)

namespace Build

/-- The next token, none at the end. -/
def peek : Build (Option Token) := do
  match (← get).tokens with
  | .unreadable m :: _ => throw (.malformed m)
  | ts => return ts.head?

def advance : Build Unit := modify fun b => { b with tokens := b.tokens.drop 1 }

/-- The node of an anchor. -/
def known (name : String) : Build NodeId := do
  match (← get).anchors.lookup name with
  | some id => return id
  | none => throw .invalid

/-- Adds a node, to which its anchor refers from now on. An anchor is used for one node only. -/
def add (anchor : Option String) (n : Node) : Build NodeId := do
  let b ← get
  let id := b.nodes.size
  let b := { b with nodes := b.nodes.push n }
  match anchor with
  | none => set b
  | some name =>
    if (b.anchors.lookup name).isSome then throw .invalid
    else set { b with anchors := (name, id) :: b.anchors }
  return id

/-- Reads the parts of a collection. -/
def inside {α : Type} (parts : Build α) : Build α := do
  match (← get).depth with
  | 0 => throw (.malformed .tooDeep)
  | depth + 1 => do
    modify fun b => { b with depth := depth }
    let a ← parts
    modify fun b => { b with depth := depth + 1 }
    return a

/-- Adds a collection before its parts are read, since they may refer to it. -/
def addCollection (anchor : Option String) (kind : Option Kind) (empty : Content)
    (parts : Build Content) : Build NodeId := do
  let id ← add anchor ⟨kind, empty⟩
  let content ← inside parts
  modify fun b => { b with nodes := b.nodes.setIfInBounds id ⟨kind, content⟩ }
  return id

/-- Adds a node that is not written at all. -/
def addEmpty : Build NodeId := add none ⟨Kind.ofText? "", .scalar ""⟩

/-- A node, unless the next token shows that it is left empty. -/
def unlessEnded (ends : Option Token → Bool) (node : Build NodeId) : Build NodeId := do
  if ends (← peek) then addEmpty else node

end Build

/-- The tag handles in force, with what they stand for. -/
abbrev Handles := List (String × String)

def standardHandles : Handles := [("!", "!"), ("!!", "tag:yaml.org,2002:")]

/-- What may stand before the content of a node. -/
structure Properties where
  anchor : Option String := none
  tag : Option String := none

namespace Properties

def isEmpty (p : Properties) : Bool := p.anchor.isNone && p.tag.isNone

/-- The kind of a node whose tag may leave it open. -/
def kindOr (p : Properties) (implied : Option Kind) : Option Kind :=
  match p.tag with
  | none | some "!" => implied
  | some name => Kind.ofTag? name

/-- The kind of a scalar. A quoted one without a tag is a text. -/
def scalarKind (p : Properties) (text : String) (isPlain : Bool) : Option Kind :=
  if p.tag.isNone && !isPlain then some .text else p.kindOr (Kind.ofText? text)

open Build

def readAnchor : Build (Option String) := do
  match ← peek with
  | some (.anchor name) => do
    advance
    return some name
  | _ => return none

/-- A tag as a handle, if it has one, and what follows it. -/
def readTag : Build (Option (Option String × String)) := do
  match ← peek with
  | some (.tag handle rest) => do
    advance
    return some (handle, rest)
  | _ => return none

def resolve (handles : Handles) : Option String × String → Build String
  | (none, name) => return name
  | (some handle, name) =>
    match handles.lookup handle with
    | some start => return start ++ name
    | none => throw .invalid

/-- Anchor and tag of a node, in either order. -/
def read (handles : Handles) : Build Properties := do
  let before ← readAnchor
  let tag ← readTag
  let anchor ← if before.isNone && tag.isSome then readAnchor else pure before
  return ⟨anchor, ← tag.mapM (resolve handles)⟩

end Properties

namespace Node

open Build

/-- Where a node stands decides which collections it may be. -/
inductive Place where
  | flow
  | block
  /-- As key or value of a block mapping, where a sequence need not be indented. -/
  | inMapping
  deriving DecidableEq, Repr

def Place.isBlock : Place → Bool
  | .flow => false
  | .block | .inMapping => true

/-- Whether a block entry, key or value is left empty before the next token. -/
def endsEntry (t : Option Token) : Bool := t = some .blockEntry || t = some .blockEnd

def endsMappingPart (t : Option Token) : Bool :=
  t = some .key || t = some .value || t = some .blockEnd

def endsIndentlessEntry (t : Option Token) : Bool := endsEntry t || endsMappingPart t

def endsFlowPart (closing : Token) (t : Option Token) : Bool :=
  t = some .flowEntry || t = some closing

def endsFlowKey (closing : Token) (t : Option Token) : Bool :=
  t = some .value || endsFlowPart closing t

/-- Passes the comma between two parts of a flow collection; before the first there is none. -/
def passComma (isFirst : Bool) : Build Unit := do
  if !isFirst then
    if (← peek) = some .flowEntry then advance else throw .invalid

mutual

/-- One node. Every step of a descent uses up one unit of the budget. -/
def read (handles : Handles) (place : Place) : Nat → Build NodeId
  | 0 => throw .invalid
  | budget + 1 => do
    match ← peek with
    | some (.alias name) => do
      advance
      known name
    | _ => do
      let p ← Properties.read handles
      let sequence (items : Build (List NodeId)) : Build NodeId :=
        addCollection p.anchor (p.kindOr (some .sequence)) (.sequence [])
          (return .sequence (← items))
      let mapping (entries : Build (List (NodeId × NodeId))) : Build NodeId :=
        addCollection p.anchor (p.kindOr (some .mapping)) (.mapping [])
          (return .mapping (← entries))
      match ← peek with
      | some (.scalar text isPlain) => do
        advance
        add p.anchor ⟨p.scalarKind text isPlain, .scalar text⟩
      | some .flowSequenceStart => sequence (readFlowItems handles true budget)
      | some .flowMappingStart => mapping (readFlowEntries handles true budget)
      | t =>
        if t = some .blockEntry && place = .inMapping then
          sequence (readIndentlessItems handles budget)
        else if t = some .blockSequenceStart && place.isBlock then
          sequence (readBlockItems handles true budget)
        else if t = some .blockMappingStart && place.isBlock then
          mapping (readBlockEntries handles true budget)
        else if p.isEmpty then throw .invalid
        else add p.anchor ⟨p.kindOr (Kind.ofText? ""), .scalar ""⟩

/-- The items of a block sequence, up to its end; the first of them behind the start token. -/
def readBlockItems (handles : Handles) (isFirst : Bool) : Nat → Build (List NodeId)
  | 0 => throw .invalid
  | budget + 1 => do
    if isFirst then advance
    match ← peek with
    | some .blockEnd => do
      advance
      return []
    | some .blockEntry => do
      advance
      let item ← unlessEnded endsEntry (read handles .block budget)
      return item :: (← readBlockItems handles false budget)
    | _ => throw .invalid

/-- The items of a sequence without indentation, up to whatever is no item. -/
def readIndentlessItems (handles : Handles) : Nat → Build (List NodeId)
  | 0 => throw .invalid
  | budget + 1 => do
    match ← peek with
    | some .blockEntry => do
      advance
      let item ← unlessEnded endsIndentlessEntry (read handles .block budget)
      return item :: (← readIndentlessItems handles budget)
    | _ => return []

/-- The entries of a block mapping, up to its end; the first of them behind the start token. -/
def readBlockEntries (handles : Handles) (isFirst : Bool) : Nat → Build (List (NodeId × NodeId))
  | 0 => throw .invalid
  | budget + 1 => do
    if isFirst then advance
    match ← peek with
    | some .blockEnd => do
      advance
      return []
    | some .key => do
      advance
      let key ← unlessEnded endsMappingPart (read handles .inMapping budget)
      let member ←
        if (← peek) = some .value then do
          advance
          unlessEnded endsMappingPart (read handles .inMapping budget)
        else addEmpty
      return (key, member) :: (← readBlockEntries handles false budget)
    | _ => throw .invalid

/-- Key and value of an entry in a flow collection, from the key token on. -/
def readFlowPair (handles : Handles) (closing : Token) : Nat → Build (NodeId × NodeId)
  | 0 => throw .invalid
  | budget + 1 => do
    advance
    let key ← unlessEnded (endsFlowKey closing) (read handles .flow budget)
    if (← peek) = some .value then
      advance
      return (key, ← unlessEnded (endsFlowPart closing) (read handles .flow budget))
    else return (key, ← addEmpty)

/-- The items of a flow sequence, up to its end; the first of them behind the start token. A pair
among them is a mapping of its own. -/
def readFlowItems (handles : Handles) (isFirst : Bool) : Nat → Build (List NodeId)
  | 0 => throw .invalid
  | budget + 1 => do
    if isFirst then advance
    if (← peek) = some .flowSequenceEnd then
      advance
      return []
    else
      passComma isFirst
      match ← peek with
      | some .flowSequenceEnd => do
        advance
        return []
      | some .key => do
        let item ← addCollection none (some .mapping) (.mapping []) do
          return .mapping [← readFlowPair handles .flowSequenceEnd budget]
        return item :: (← readFlowItems handles false budget)
      | _ => do
        let item ← read handles .flow budget
        return item :: (← readFlowItems handles false budget)

/-- The entries of a flow mapping, up to its end; the first of them behind the start token. An item
without a colon has an empty value. -/
def readFlowEntries (handles : Handles) (isFirst : Bool) : Nat → Build (List (NodeId × NodeId))
  | 0 => throw .invalid
  | budget + 1 => do
    if isFirst then advance
    if (← peek) = some .flowMappingEnd then
      advance
      return []
    else
      passComma isFirst
      match ← peek with
      | some .flowMappingEnd => do
        advance
        return []
      | some .key => do
        let entry ← readFlowPair handles .flowMappingEnd budget
        return entry :: (← readFlowEntries handles false budget)
      | _ => do
        let key ← read handles .flow budget
        let member ← addEmpty
        return (key, member) :: (← readFlowEntries handles false budget)

end

/-- The directives before a document: at most one version, which must be 1, and handles that are
all different. -/
def directivesOf (hasVersion : Bool) (handles : Handles) :
    List Token → Except Fault (Handles × List Token)
  | .directive (.version major) :: rest =>
    if hasVersion || major ≠ 1 then .error .invalid else directivesOf true handles rest
  | .directive (.handle name start) :: rest =>
    if (handles.lookup name).isSome then .error .invalid
    else directivesOf hasVersion ((name, start) :: handles) rest
  | .directive .other :: rest => directivesOf hasVersion handles rest
  | ts => .ok (handles, ts)

/-- The handles that a document starts with; what follows must be its start. -/
def readDirectives : Build Handles := do
  let b ← get
  let (handles, rest) ← directivesOf false [] b.tokens
  set { b with tokens := rest }
  if (← peek) = some .documentStart then return handles ++ standardHandles else throw .invalid

/-- Whether an explicit document is left empty. -/
def endsDocument : Option Token → Bool
  | none | some (.directive _) | some .documentStart | some .documentEnd => true
  | _ => false

def readDocument : Build NodeId := do
  let budget := 4 * (← get).tokens.length + 4
  match ← peek with
  | some (.directive _) | some .documentStart => do
    let handles ← readDirectives
    advance
    unlessEnded endsDocument (read handles .block budget)
  | _ => read standardHandles .block budget

/-- The end of the text. Nothing but end markers may follow a document, another one neither. -/
def readEnd : Build Unit := do
  modify fun b => { b with tokens := b.tokens.dropWhile (· = .documentEnd) }
  if (← peek).isSome then
    let _ ← readDirectives
    throw .invalid

/-- The document that tokens describe: its nodes, and which of them is the root. -/
def ofTokens? (ts : List Token) : Except Fault (Option (Array Node × NodeId)) := do
  if ts.isEmpty then return none
  else
    let document : Build NodeId := do
      let root ← readDocument
      readEnd
      return root
    let (root, b) ← document.run { tokens := ts }
    return some (b.nodes, root)

end Node

end TypedClient.Yaml
