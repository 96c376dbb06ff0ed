import TypedClient.Pointer
import TypedClient.Schema

/-!
# Types of responses and request bodies

A response or request body contributes the type of its first known media type, in a fixed order of
preference; the types of several are a union without repeats. Beside each type stands the media
type that it came from first.
-/
namespace TypedClient

inductive MediaType where
  | json
  | octetStream
  | pdf
  deriving DecidableEq, Repr

namespace MediaType

/-- The media types that are looked for, in order of preference. -/
def all : List MediaType := [.json, .octetStream, .pdf]

def name : MediaType → String
  | .json => "application/json"
  | .octetStream => "application/octet-stream"
  | .pdf => "application/pdf"

/-- Whether content of this type is delivered as raw bytes. -/
def isBinary : MediaType → Bool
  | .json => false
  | .octetStream | .pdf => true

end MediaType

/-- What one response or request body contributes to a union. -/
structure Contribution where
  text : String
  media : Option MediaType
  imports : List String
  deriving DecidableEq, Repr

structure Payload where
  types : List (String × Option MediaType)
  imports : List String
  deriving DecidableEq, Repr

namespace Contribution

def unknownType : String := "unknown"

/-- The contribution of content whose type is not stated. -/
def unknown : Contribution := ⟨unknownType, none, []⟩

/-- The preferred media type that some content has, and what stands there. -/
def preferred? (content : Entries) : Option (MediaType × Value) :=
  (MediaType.all.map fun m => (m, content.field m.name)).find? fun p => p.2 ≠ .null

/-- The contribution of content, by its preferred media type. -/
def ofContent (g : Graph) (content : Entries) (pointer : String) : Result Contribution :=
  match preferred? content with
  | none => .ok unknown
  | some (m, media) =>
    let schema := ((g.entries? media).map fun es => es.field "schema").getD .null
    if schema = .null then .ok unknown
    else do
      let r ← Schema.resolve g schema
        (pointer ++ "/content/" ++ Pointer.escape m.name ++ "/schema")
      return ⟨r.text, some m, r.imports⟩

/-- The contribution of one item; a missing item has none. -/
def ofItem? (g : Graph) (pointer : String) (item : Value) : Result (Option Contribution) := do
  if !g.truthy item then return none
  else
    let es ← g.entries item
    if g.truthy (es.field "$ref") then
      let r ← Schema.resolveReference es pointer
      return some ⟨r.text, none, r.imports⟩
    else
      let content ← g.optionalEntries (es.field "content")
      return some (← ofContent g content pointer)

end Contribution

namespace Payload

/-- The first entry for each text. -/
def firsts : List (String × Option MediaType) → List (String × Option MediaType)
  | [] => []
  | t :: rest => t :: (firsts rest).filter fun u => u.1 ≠ t.1

def ofContributions (cs : List Contribution) : Payload :=
  ⟨firsts (cs.map fun c => (c.text, c.media)), Text.distinct (cs.flatMap (·.imports))⟩

/-- The union of the types of several items, each with its place in the document. -/
def ofItems (g : Graph) (items : List (String × Value)) : Result Payload := do
  let contributions ← items.mapM fun item => Contribution.ofItem? g item.1 item.2
  return ofContributions (contributions.filterMap id)

def values (p : Payload) : List String := p.types.map (·.1)

def text (p : Payload) : String := Text.joinWith " | " p.values

/-- The media type of a payload that is a single binary stream. -/
def binary? (p : Payload) : Option MediaType :=
  match p.types with
  | [(_, some m)] => if m.isBinary then some m else none
  | _ => none

end Payload

end TypedClient
