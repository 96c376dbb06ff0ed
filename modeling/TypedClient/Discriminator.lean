import TypedClient.Schema

/-!
# Discriminators

A discriminator maps literals to schemas. The property that it names gets the literal as its only
value in each mapped schema, unless the property is a reference. Schemas are taken in the order of
the components and literals in the order of the mapping; the last literal for a property stays.

Every step reads the graph as the steps before it have left it: where one node stands in several
places, a change in one place is a change in all.
-/
namespace TypedClient

/-- A literal mapped to a schema that the document does not have. -/
structure UnknownTarget where
  literal : Scalar
  schema : String
  deriving DecidableEq, Repr

namespace Discriminator

def schemasRoot : String := "#/components/schemas/"

/-- What a walk over mappings has brought: the warnings so far, and the graph unless it stopped. -/
structure Outcome where
  warnings : List UnknownTarget
  result : Result Graph

namespace Outcome

/-- Goes on from the graph that was reached. -/
def andThen (o : Outcome) (next : Graph → Outcome) : Outcome :=
  match o.result with
  | .error s => ⟨o.warnings, .error s⟩
  | .ok g =>
    let rest := next g
    ⟨o.warnings ++ rest.warnings, rest.result⟩

end Outcome

/-- The entry at a position of a mapping that had `size` entries when the walk over it began. -/
def entryAt (g : Graph) (v : Value) (size index : Nat) : Result (Scalar × Value) := do
  let es ← g.entries v
  match es[index]? with
  | some e => if es.length = size then return e else malformed .changedWhileRead
  | none => malformed .changedWhileRead

/-- Walks over the entries of a mapping as they are when their turn comes. -/
def walk (v : Value) (size : Nat) (visit : Graph → Scalar × Value → Outcome) :
    List Nat → Graph → Outcome
  | [], g =>
    match g.entries v with
    | .error s => ⟨[], .error s⟩
    | .ok es => ⟨[], if es.length = size then .ok g else malformed .changedWhileRead⟩
  | index :: rest, g =>
    match entryAt g v size index with
    | .error s => ⟨[], .error s⟩
    | .ok e => (visit g e).andThen (walk v size visit rest)

def walkEntries (v : Value) (visit : Graph → Scalar × Value → Outcome) (g : Graph) : Outcome :=
  match g.entries v with
  | .error s => ⟨[], .error s⟩
  | .ok es => walk v es.length visit (List.range es.length) g

/-- The name of the schema that a mapping entry refers to. -/
def targetName (g : Graph) (pointer : String) (ref : Value) : Result String :=
  let refuse : Result String := do
    fail (.discriminatorMapping (← g.textOf ref) (some pointer))
  match ref with
  | .scalar (.text s) =>
    match Text.dropStart? schemasRoot.toList s.toList with
    | some name => .ok (String.ofList name)
    | none => refuse
  | _ => refuse

/-- Makes a literal the only value of a schema node. -/
def restrict (g : Graph) (id : NodeId) (fields : Entries) (literal : Scalar) : Graph :=
  let (g, only) := g.add (.list [.scalar literal])
  g.set id (.mapping (Entries.put (.text "enum") only fields))

/-- Restricts the named property of a schema, where it is an inline mapping. -/
def restrictProperty (g : Graph) (schema : Entries) (property : Value) (literal : Scalar) :
    Result Graph := do
  let properties ← g.optionalEntries (schema.field "properties")
  let name ← g.comparable property
  match g.view ((Entries.lookup? properties name).getD .null) with
  | .mapping id fields =>
    if g.truthy (fields.field "$ref") then return g else return restrict g id fields literal
  | _ => return g

/-- Carries out one entry of a mapping. -/
def assign (schemas property : Value) (pointer : String) (g : Graph) (entry : Scalar × Value) :
    Outcome :=
  let step : Result (Graph × List UnknownTarget) := do
    let name ← targetName g pointer entry.2
    let known ← g.entries schemas
    match g.entries? (known.field name) with
    | none => return (g, [⟨entry.1, name⟩])
    | some schema => return (← restrictProperty g schema property entry.1, [])
  match step with
  | .ok (g, warnings) => ⟨warnings, .ok g⟩
  | .error s => ⟨[], .error s⟩

/-- Carries out the mapping of one schema, if it has one. -/
def assignAll (schemas : Value) (g : Graph) (entry : Scalar × Value) : Outcome :=
  match g.entries? entry.2 with
  | none => ⟨[], .ok g⟩
  | some schema =>
    match g.entries? (schema.field "discriminator") with
    | none => ⟨[], .ok g⟩
    | some discriminator =>
      let mapping := discriminator.field "mapping"
      if !g.truthy mapping then ⟨[], .ok g⟩
      else
        match entry.1.textOf with
        | .error s => ⟨[], .error s⟩
        | .ok name =>
          let pointer := schemasRoot ++ name ++ "/discriminator"
          walkEntries mapping (assign schemas (discriminator.field "propertyName") pointer) g

/-- The schemas among the components of a document. -/
def schemas (g : Graph) (document : Value) : Result Value := do
  let fields ← g.entries document
  let components ← g.optionalEntries (fields.field "components")
  return components.field "schemas"

/-- Carries out all mappings of a document. -/
def propagate (g : Graph) (document : Value) : Outcome :=
  match schemas g document with
  | .error s => ⟨[], .error s⟩
  | .ok v => if !g.truthy v then ⟨[], .ok g⟩ else walkEntries v (assignAll v) g

end Discriminator

end TypedClient
