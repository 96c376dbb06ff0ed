import TypedClient.Naming

/-!
# References to components

A reference names a component in one of four namespaces. Each namespace adds its own ending to the
name of the generated type.
-/
namespace TypedClient

inductive Namespace where
  | schemas
  | responses
  | parameters
  | requestBodies
  deriving DecidableEq, Repr

structure Reference where
  namespace_ : Namespace
  name : String
  deriving DecidableEq, Repr

namespace Namespace

def all : List Namespace := [.schemas, .responses, .parameters, .requestBodies]

/-- The key of the namespace among the components. -/
def key : Namespace → String
  | .schemas => "schemas"
  | .responses => "responses"
  | .parameters => "parameters"
  | .requestBodies => "requestBodies"

/-- The ending of type names from this namespace. -/
def ending : Namespace → String
  | .schemas => ""
  | .responses => "Response"
  | .parameters => "Parameter"
  | .requestBodies => "RequestBody"

def ofKey? (key : String) : Option Namespace := all.find? fun n => n.key = key

end Namespace

namespace Reference

def root : String := "#/components/"

/-- The component that a text refers to: the root, a namespace, a slash and a name that is not
empty and holds no slash. -/
def parse? (text : String) : Option Reference := do
  let rest ← Text.dropStart? root.toList text.toList
  let (key, name) ← Text.cutFirst '/' rest
  let ns ← Namespace.ofKey? (String.ofList key)
  if name = [] ∨ '/' ∈ name then none else some ⟨ns, String.ofList name⟩

/-- The name of the type generated for a component. -/
def typeName (r : Reference) : String := Naming.pascalCase r.name ++ r.namespace_.ending

end Reference

end TypedClient
