import TypedClient.Document.Tree
import TypedClient.Failure

/-!
# Amendments

An amendment changes top-level fields of a document: each of its keys gets a new value, in place
where the document has the key and at the end otherwise, or is removed. Nothing in the library uses
amendments, and a transformer can do more. They are for callers that cannot hand over a function and
state what their transformer does as data.
-/
namespace TypedClient

/-- The new values of top-level fields; none where a field is removed. -/
abbrev Amendment := List (String × Option Tree)

namespace Amendment

def change (g : Graph) (fields : Entries) (name : String) : Option Tree → Graph × Entries
  | none => (g, fields.filter fun e => !e.1.same (.text name))
  | some t =>
    let (g, v) := g.addTree t
    (g, Entries.put (.text name) v fields)

/-- The amended copy of a document. -/
def apply (a : Amendment) (g : Graph) (document : Value) : Result (Graph × Value) := do
  let fields ← g.entries document
  let (g, fields) := a.foldl (fun s c => change s.1 s.2 c.1 c.2) (g, fields)
  return g.add (.mapping fields)

end Amendment

end TypedClient
