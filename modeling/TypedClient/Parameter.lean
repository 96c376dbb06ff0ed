import TypedClient.Model
import TypedClient.Pointer

/-!
# Parameters

Parameters are declared by an operation or by the route around it, inline or as a reference to a
component. An operation overrides what the route declares under the same name and place. A
compiled `Parameter` has a fragment for the interface and one for the implementation, and parameters
are ordered so that none that must be given follows one that may be left out.
-/
namespace TypedClient

/-- A parameter as declared, under its name and place. -/
structure Declaration where
  name : String
  place : String
  fields : Entries
  value : Value
  deriving DecidableEq, Repr

structure Parameter where
  name : String
  type : Resolved
  required : Bool
  default : Option Value := none
  deriving DecidableEq, Repr

namespace Declaration

/-- The component parameter of a name, if there is one. -/
def component? (g : Graph) (components : Value) (name : String) : Result (Option Value) := do
  let sections ← g.optionalEntries components
  let parameters ← g.optionalEntries (sections.field Namespace.parameters.key)
  let found := parameters.field name
  return if g.isMapping found then some found else none

/-- The parameter itself, where a reference stands for it. -/
def dereference (g : Graph) (components : Value) (pointer : String) (v : Value) : Result Value :=
  if !Schema.isReference g v then .ok v
  else do
    let es ← g.entries v
    let text ← (es.field "$ref").asReference
    let r ← Schema.component text (some pointer)
    if r.namespace_ ≠ .parameters then fail (.unsupportedReference text (some pointer))
    else
      match ← component? g components r.name with
      | some found => return found
      | none => fail (.unresolvedReference text (some pointer))

def ofValue (g : Graph) (components : Value) (pointer : String) (v : Value) :
    Result Declaration := do
  let v ← dereference g components pointer v
  let es ← g.entries v
  return ⟨← g.textOf (es.field "name"), ← g.textOf (es.field "in"), es, v⟩

/-- The declarations in a list at a place of the document. -/
def ofList (g : Graph) (components : Value) (base : String) (vs : List Value) :
    Result (List Declaration) :=
  vs.zipIdx.mapM fun (v, index) =>
    ofValue g components (base ++ "/parameters/" ++ toString index) v

/-- Adds a declaration: in the place of the one with its name and place, or at the end. -/
def override (ds : List Declaration) (d : Declaration) : List Declaration :=
  match ds with
  | [] => [d]
  | e :: rest =>
    if e.name = d.name ∧ e.place = d.place then d :: rest else e :: override rest d

/-- The declarations of a route and of one of its operations, at `pointer`, in one list. -/
def merge (g : Graph) (components : Value) (pointer : String)
    (shared own : Result (List Value)) : Result (List Declaration) := do
  let shared ← ofList g components (Pointer.parent pointer) (← shared)
  let own ← ofList g components pointer (← own)
  return (shared ++ own).foldl override []

def isIn (g : Graph) (place : String) (d : Declaration) : Bool :=
  g.view (d.fields.field "in") = .scalar (.text place)

end Declaration

namespace Parameter

def hasDefault (p : Parameter) : Bool := p.default.isSome

/-- A parameter from its declaration. A name that is given and not empty replaces the declared
one. -/
def ofFields (g : Graph) (pointer : String) (name : Option String) (es : Entries) :
    Result Parameter := do
  let schema := es.field "schema"
  let default := ((g.entries? schema).map fun s => s.field "default").getD .null
  let name ←
    match name.filter (· ≠ ""), Entries.lookup? es (.text "name") with
    | some n, _ => .ok n
    | none, some declared => g.textOf declared
    | none, none => .ok ""
  let type ← Schema.resolve g schema (pointer ++ "/schema")
  return {
    name := name
    type := type
    required := g.truthy (es.field "required")
    default := if default = .null then none else some default }

/-- The fragment of the interface. -/
def definition (p : Parameter) : String :=
  p.name ++ (if !p.required || p.hasDefault then "?" else "") ++ ": " ++ p.type.text

/-- The fragment of the implementation, with the default value where there is one. -/
def implementation (g : Graph) (p : Parameter) : Result String :=
  match p.default with
  | some v =>
    match g.literal v with
    | .ok s => .ok (p.name ++ ": " ++ p.type.text ++ " = " ++ s)
    | .error .unwritable => malformed .unwritable
    | .error .numberTooLong => malformed .numberTooLong
    | .error .circular => malformed .circular
  | none => .ok (p.name ++ (if p.required then "" else "?") ++ ": " ++ p.type.text)

/-- Required parameters come first, then those that may be left out, then those with a default. -/
def rank (p : Parameter) : Nat := if p.hasDefault then 2 else if p.required then 0 else 1

/-- Orders by rank; parameters of one rank keep their order. -/
def sort (ps : List Parameter) : List Parameter :=
  [0, 1, 2].flatMap fun r => ps.filter fun p => p.rank = r

/-- The one parameter that holds all query parameters. -/
def ofQuery (g : Graph) (pointer : String) (ds : List Declaration) : Result Parameter := do
  let members ← ds.mapM fun d => ofFields g (pointer ++ "/query/" ++ d.name) none d.fields
  return {
    name := "params"
    type := .join (Schema.recordText (members.map definition)) (members.map (·.type))
    required := members.any fun p => p.required && !p.hasDefault }

end Parameter

end TypedClient
