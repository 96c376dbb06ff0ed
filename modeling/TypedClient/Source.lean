import TypedClient.Yaml.Document

/-!
# Sources

A source is the text of a document, the format that it is declared to be in and where it came from.
Reading it gives a document whose root is a mapping, or says what is wrong with the text.
-/
namespace TypedClient

inductive Format where
  | yaml
  | json
  deriving DecidableEq, Repr

namespace Format

def name : Format → String
  | .yaml => "yaml"
  | .json => "json"

def ofName? (name : String) : Option Format :=
  if name = "yaml" then some .yaml else if name = "json" then some .json else none

end Format

structure Source where
  text : String
  format : String
  origin : Option String := none
  deriving DecidableEq, Repr

namespace Source

def readYaml (text : String) (origin : Option String) : Result (Graph × Value) :=
  match Yaml.read text with
  | .ok document => .ok document
  | .error .invalid => fail (.format .invalidYaml origin)
  | .error (.malformed m) => malformed m

def readJson (text : String) (origin : Option String) : Result (Graph × Value) :=
  match Json.read text with
  | .ok t => .ok (Graph.ofTree t)
  | .error fault =>
    match fault.complaint with
    | .numeralTooLong => malformed .unreadableNumber
    | .tooDeep => malformed .tooDeep
    | _ => fail (.format (.invalidJson fault) origin)

def readAs (format : Format) (text : String) (origin : Option String) : Result (Graph × Value) :=
  match format with
  | .yaml => readYaml text origin
  | .json => readJson text origin

/-- The document of a source. The format is checked before the text is looked at. -/
def read (s : Source) : Result (Graph × Value) :=
  match Format.ofName? s.format with
  | none => fail (.format (.unsupportedFormat s.format) s.origin)
  | some format => do
    let (g, document) ← readAs format s.text s.origin
    if g.isMapping document then return (g, document)
    else fail (.format .rootNotMapping s.origin)

end Source

end TypedClient
