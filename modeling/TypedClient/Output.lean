import TypedClient.Client

/-!
# Output files

A client is written as `api.ts`, one file per model and an index that exports every model. Paths
are relative to the directory of the client, and files come in the order in which they are written.
-/
namespace TypedClient.Output

def header : String := "/* Generated by restful-client */"

/-- The text of `api.ts`. Models are imported only if there are any to import. -/
def api (c : Client) : String :=
  let imports :=
    if c.api.imports.isEmpty then ""
    else
      Text.lines (["import \x7b"] ++ (c.api.imports.map fun n => "  " ++ n ++ ",") ++
        ["\x7d from './models'"]) ++ "\n"
  c.base ++ "\n" ++ imports ++ "\n" ++ c.api.definition ++ "\n\n" ++ c.api.implementation ++ "\n"

/-- The text of the file of a model. -/
def model (m : Model) : String :=
  Text.lines
    ([header] ++ (m.imports.map fun n => "import \x7b " ++ n ++ " \x7d from './" ++ n ++ "'") ++
      ["", m.declaration]) ++ "\n"

/-- The text of the index. -/
def index (models : List Model) : String :=
  Text.lines ([header, ""] ++ models.map fun m => "export * from './" ++ m.name ++ "'") ++ "\n"

def modelFile (m : Model) : String := "models/" ++ m.name ++ ".ts"

/-- The files of a client with their texts. -/
def files (c : Client) : List (String × String) :=
  [("api.ts", api c)] ++ (c.models.map fun m => (modelFile m, model m)) ++
    [("models/index.ts", index c.models)]

/-- The text that a file has in the end: that of its last writing. -/
def finalText (written : List (String × String)) (path : String) : Option String :=
  (written.reverse.find? fun f => f.1 = path).map (·.2)

end TypedClient.Output
