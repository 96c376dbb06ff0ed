import TypedClient.Payload

/-!
# Models

A model is the declaration of one named type and the names it imports. Records become interfaces
and everything else a type alias; an enumeration also gets a constant with one entry per value.
Every component of the four namespaces has one model.
-/
namespace TypedClient

structure Model where
  name : String
  declaration : String
  imports : List String
  deriving DecidableEq, Repr

namespace Model

/-- The imports that a declaration needs: neither built-in types nor the declared type itself. -/
def neededImports (exclude : Option String) (names : List String) : List String :=
  Text.distinct
    (names.filter fun n => n ≠ "" && some n ≠ exclude && !Naming.isBuiltInType n)

def emptyInterfaceComment : String := "// tslint:disable-next-line:no-empty-interface"

/-- The declaration of a record. An empty record silences the checker that dislikes it. -/
def interfaceText (name type : String) : String :=
  (if type = "\x7b\x7d" then emptyInterfaceComment ++ "\n" else "") ++
    "export interface " ++ name ++ " " ++ type

def aliasText (name type : String) : String := "export type " ++ name ++ " = " ++ type ++ ";"

/-- The constant that maps each value of an enumeration to itself. -/
def enumerationText (name : String) (values : List String) : String :=
  let line (value : String) : String :=
    "  " ++ TypeText.propertyKey value ++ ": " ++ TypeText.literal value ++ " as " ++ name ++ ","
  Text.lines (["export const " ++ name ++ " = \x7b"] ++ values.map line ++ ["\x7d;"])

/-- Whether a schema may be declared as an interface: a plain object or a schema without a type,
not nullable and not composed. -/
def isInterfaceCandidate (g : Graph) (v : Value) : Bool :=
  match g.entries? v with
  | none => false
  | some es =>
    let type := es.field "type"
    !g.truthy (es.field "$ref") && (type = .null || type.isText "object") &&
      !g.truthy (es.field "nullable") && (Schema.composition? g es).isNone

/-- The model of a schema component. -/
def ofSchema (g : Graph) (name : String) (schema : Value) : Result Model := do
  let typeName := Naming.pascalCase name
  let r ← Schema.resolve g schema ("#/components/schemas/" ++ name)
  let imports := neededImports (some typeName) r.imports
  if isInterfaceCandidate g schema && TypeText.isRecord r.text then
    return ⟨typeName, interfaceText typeName r.text, imports⟩
  else if r.isEnumeration then
    return ⟨typeName, aliasText typeName r.text ++ "\n\n" ++ enumerationText typeName r.literals,
      imports⟩
  else return ⟨typeName, aliasText typeName r.text, imports⟩

/-- The model of a named type given by its text. -/
def ofText (name type : String) (imports : List String) : Model :=
  let declaration :=
    if TypeText.isRecord type then interfaceText name type
    else aliasText name (if type = "" then Contribution.unknownType else type)
  ⟨name, declaration, neededImports (some name) imports⟩

/-- The type of a parameter component. -/
def parameterType (g : Graph) (pointer : String) (v : Value) : Result Resolved :=
  match g.entries? v with
  | none => .ok ⟨"any", [], []⟩
  | some es =>
    if g.truthy (es.field "$ref") then Schema.resolve g v pointer
    else Schema.resolve g (es.field "schema") (pointer ++ "/schema")

/-- The model of one component. -/
def ofComponent (g : Graph) (ns : Namespace) (key : Scalar) (v : Value) : Result Model := do
  let pointer : Result String := do
    return "#/components/" ++ ns.key ++ "/" ++ (← key.textOf)
  match ns with
  | .schemas => ofSchema g (← (Value.scalar key).asName) v
  | .responses | .requestBodies =>
    let payload ← Payload.ofItems g [(← pointer, v)]
    let name ← (Value.scalar key).asName
    return ofText (Naming.pascalCase name ++ ns.ending) payload.text payload.imports
  | .parameters =>
    let r ← parameterType g (← pointer) v
    let name ← (Value.scalar key).asName
    return ofText (Naming.pascalCase name ++ ns.ending) r.text r.imports

/-- The models of one namespace, in the order of its components. -/
def ofSection (g : Graph) (ns : Namespace) (part : Value) : Result (List Model) := do
  let entries ← g.optionalEntries part
  entries.mapM fun e => ofComponent g ns e.1 e.2

/-- The order in which the models of the namespaces follow each other. -/
def sectionOrder : List Namespace := [.schemas, .responses, .requestBodies, .parameters]

/-- The models of all components. -/
def ofComponents (g : Graph) (components : Entries) : Result (List Model) := do
  let sections ← sectionOrder.mapM fun ns => ofSection g ns (components.field ns.key)
  return sections.flatten

end Model

end TypedClient
