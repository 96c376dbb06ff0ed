import TypedClient.Failure
import TypedClient.Reference
import TypedClient.TypeText

/-!
# Types of schemas

The type that a schema stands for, as text, with the names of the generated types that it uses and
the literals of an enumeration. A reference is never followed: it is the name of its type. The
kinds of schema are tried in a fixed order: reference, number, boolean, array, string, then the
first composition that has members, properties, additional properties.

`resolve` descends through a document graph and enters no mapping twice on one path, which is why
it ends on every graph; a schema that meets itself on such a path is refused.
-/
namespace TypedClient

/-- The text of a type with the generated types it uses and, for an enumeration, its values. -/
structure Resolved where
  text : String
  imports : List String := []
  literals : List String := []
  deriving DecidableEq, Repr

namespace Resolved

def isEnumeration (r : Resolved) : Bool := !r.literals.isEmpty

/-- The same type with something added to its text; what is added ends an enumeration. -/
def extend (r : Resolved) (text : String) : Resolved := ⟨r.text ++ text, r.imports, []⟩

/-- Several types in one text, which uses whatever any of them uses. -/
def join (text : String) (parts : List Resolved) : Resolved :=
  ⟨text, Text.distinct (parts.flatMap (·.imports)), []⟩

end Resolved

namespace Schema

/-- What the `type` of a schema says about it. -/
inductive Kind where
  | number
  | boolean
  | array
  | string
  | structural
  deriving DecidableEq, Repr

inductive Composition where
  | allOf
  | oneOf
  | anyOf
  deriving DecidableEq, Repr

def numberTypes : List String :=
  ["integer", "number", "int32", "int64", "long", "float", "double"]

def stringTypes : List String :=
  ["string", "byte", "binary", "date", "dateTime", "date-time", "password"]

def Kind.ofScalar : Scalar → Kind
  | .text t =>
    if numberTypes.contains t then .number
    else if t = "boolean" then .boolean
    else if t = "array" then .array
    else if stringTypes.contains t then .string
    else .structural
  | _ => .structural

/-- What the `type` of a schema says, if it is something that names could be compared with. -/
def Kind.ofType (g : Graph) (type : Value) : Result Kind :=
  match g.view type with
  | .scalar s => .ok (ofScalar s)
  | .set _ _ | .pair _ (.scalar _) (.scalar _) => .ok .structural
  | _ => malformed .notComparable

namespace Composition

/-- The compositions in the order in which they are looked for. -/
def all : List Composition := [.allOf, .oneOf, .anyOf]

def key : Composition → String
  | .allOf => "allOf"
  | .oneOf => "oneOf"
  | .anyOf => "anyOf"

def operator : Composition → String
  | .allOf => " & "
  | .oneOf | .anyOf => " | "

end Composition

def binaryType : String := "BlobPart"

/-- Whether a value is a mapping with a reference in it. -/
def isReference (g : Graph) (v : Value) : Bool :=
  match g.entries? v with
  | some es => g.truthy (es.field "$ref")
  | none => false

/-- The first composition of a schema that has members, and these. -/
def composition? (g : Graph) (es : Entries) : Option (Composition × Value) :=
  (Composition.all.map fun c => (c, es.field c.key)).find? fun p => g.truthy p.2

def isComposed (g : Graph) (v : Value) : Bool :=
  match g.entries? v with
  | some es => (composition? g es).isSome
  | none => false

/-- The component that a reference refers to. -/
def component (text : String) (pointer : Option String) : Result Reference :=
  match Reference.parse? text with
  | some r => .ok r
  | none => fail (.unsupportedReference text pointer)

/-- The type of a reference is the name of the generated type. -/
def resolveReference (es : Entries) (pointer : String) : Result Resolved := do
  let text ← (es.field "$ref").asReference
  let r ← component text (some pointer)
  return ⟨r.typeName, [r.typeName], []⟩

section Step

-- `inner` gives the type of a schema inside the one at hand, and where it stands.
variable (inner : Value → String → Result Resolved) (g : Graph)

/-- An array of the type of its items, in parentheses where the items are a union or an
intersection. -/
def resolveArray (es : Entries) (pointer : String) : Result Resolved := do
  let items := es.field "items"
  if items = .null then fail (.schema .arrayWithoutItems (some pointer))
  else
    let r ← inner items (pointer ++ "/items")
    let grouped := !isReference g items && (isComposed g items || TypeText.isCompound r.text)
    return ⟨if grouped then "(" ++ r.text ++ ")[]" else r.text ++ "[]", r.imports, []⟩

/-- The values of an enumeration as texts; null is not one of them. -/
def enumeration (es : Entries) : Result (List String) := do
  let values ← g.optionalElements (es.field "enum")
  (values.filter fun v => v ≠ .null).mapM g.textOf

def resolveString (es : Entries) : Result Resolved := do
  if (es.field "format").isText "binary" then return ⟨binaryType, [], []⟩
  else
    let values ← enumeration g es
    if values.isEmpty then return ⟨"string", [], []⟩
    else return ⟨Text.joinWith " | " (values.map TypeText.literal), [], values⟩

def resolveComposition (c : Composition) (members : Value) (pointer : String) :
    Result Resolved := do
  let members ← g.elements members
  let parts ← members.zipIdx.mapM fun (member, index) =>
    inner member (pointer ++ "/" ++ c.key ++ "/" ++ toString index)
  return .join (Text.joinWith c.operator (parts.map (·.text))) parts

/-- One member of a record. -/
def memberText (key : String) (required : Bool) (type : String) : String :=
  key ++ (if required then "" else "?") ++ ": " ++ type

def recordText (members : List String) : String :=
  "\x7b" ++ Text.joinWith "; " members ++ "\x7d"

/-- The names that a schema requires. -/
def requiredNames (es : Entries) : Result (List Scalar) := do
  g.comparables (← g.optionalElements (es.field "required"))

def resolveProperties (es properties : Entries) (pointer : String) : Result Resolved := do
  let required ← requiredNames g es
  let members ← properties.mapM fun (key, property) => do
    let r ← inner property (pointer ++ "/properties/" ++ (← key.textOf))
    let name ← (Value.scalar key).asName
    return (memberText (TypeText.propertyKey name) (required.any key.same) r.text, r)
  return .join (recordText (members.map (·.1))) (members.map (·.2))

def mapText (type : String) : String := "\x7b[key: string]: " ++ type ++ "\x7d"

/-- The type of a schema by its structure. -/
def resolveStructure (es : Entries) (pointer : String) : Result Resolved :=
  match composition? g es with
  | some (c, members) => resolveComposition inner g c members pointer
  | none =>
    match g.entries? (es.field "properties") with
    | some properties => resolveProperties inner g es properties pointer
    | none =>
      let additional := es.field "additionalProperties"
      if additional = .null ∨ additional = .scalar (.bool false) then
        .ok ⟨if (es.field "type").isText "object" then "\x7b\x7d" else "any", [], []⟩
      else do
        let r ← inner additional (pointer ++ "/additionalProperties")
        return ⟨mapText r.text, r.imports, []⟩

/-- What a nullable schema adds to its type. -/
def nullText (es : Entries) : String := if g.truthy (es.field "nullable") then " | null" else ""

/-- The type of a mapping that is no reference. -/
def resolveMapping (es : Entries) (pointer : String) : Result Resolved := do
  let kind ← Kind.ofType g (es.field "type")
  let null := nullText g es
  match kind with
  | .number => return ⟨"number" ++ null, [], []⟩
  | .boolean => return ⟨"boolean" ++ null, [], []⟩
  | .array => return (← resolveArray inner g es pointer).extend null
  | .string =>
    let r ← resolveString g es
    return { r with text := r.text ++ null }
  | .structural => return (← resolveStructure inner g es pointer).extend null

end Step

def cycleMessage : String := "Schema contains itself through inline composition"

/-- The type of a schema inside the mappings `active`. -/
def resolveWithin (g : Graph) (active : List NodeId) (v : Value) (pointer : String) :
    Result Resolved :=
  match _h : g.view v with
  | .mapping id es =>
    if g.truthy (es.field "$ref") then resolveReference es pointer
    else if _hid : id ∈ active then fail (.cyclicSchema cycleMessage (some pointer))
    else resolveMapping (fun inner p => resolveWithin g (id :: active) inner p) g es pointer
  | _ => .ok ⟨"any", [], []⟩
termination_by g.unvisited active
decreasing_by exact Graph.unvisited_cons_lt (Graph.lt_size_of_view_mapping _h) _hid

/-- The type of a schema at a place of a document. -/
def resolve (g : Graph) (v : Value) (pointer : String) : Result Resolved :=
  resolveWithin g [] v pointer

end Schema

end TypedClient
