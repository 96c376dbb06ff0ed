import TypedClient.Failure

/-!
# Document versions

Only documents of version 3.0 are generated from. The version is a text that begins with `3.0`.
-/
namespace TypedClient.Version

def supported : String := "3.0"

/-- What a refused document says about its version. -/
def found (g : Graph) (fields : Entries) : Result String :=
  let stated := fields.field "openapi"
  let older := fields.field "swagger"
  if g.truthy stated then g.textOf stated
  else if g.truthy older then g.textOf older
  else .ok "unknown"

/-- The version of a document, if it is supported. -/
def check (g : Graph) (document : Value) (source : Option String) : Result String := do
  let fields ← g.entries document
  let refuse : Result String := do
    fail (.format (.unsupportedVersion (← found g fields)) source)
  match fields.field "openapi" with
  | .scalar (.text s) => if Text.startsWith supported.toList s.toList then .ok s else refuse
  | _ => refuse

end TypedClient.Version
