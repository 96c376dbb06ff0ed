import TypedClient.Files
import TypedClient.Host
import TypedClient.Location

/-!
# Settings

A configuration maps the names of clients to their settings. Locations in it are seen from the
directory of the configuration, wherever a command runs; remote ones stay as they are. The first
entry that cannot be used stops the reading, and no client comes out of a configuration that has
one.
-/
namespace TypedClient

/-- What one client is generated from and where it goes. -/
structure Settings where
  name : String
  spec : String
  output : Path
  validate : Bool := false
  transformer : Option Path := none
  deriving DecidableEq, Repr

namespace Settings

/-- The absolute path of a location seen from a directory. On the way to it, the first name that no
file can have stops the search. -/
def located (base : Path) (location : String) : Result Path :=
  let path := Path.ofText location
  match path.segments.findSome? Path.nameRefusal? with
  | some m => malformed m
  | none => .ok (path.resolve base)

def locatedSpec (base : Path) (location : String) : Result String :=
  if Location.isRemote location then .ok location else (located base location).map Path.text

/-- The first of the named fields that says something. -/
def firstStated (g : Graph) (fields : Entries) (names : List String) : Option Value :=
  (names.map fields.field).find? g.truthy

/-- Whether a client is to be validated: what the first of the two fields says that is there. -/
def validates (g : Graph) (fields : Entries) : Bool :=
  let stated := (Entries.lookup? fields (.text "validate")).orElse fun _ =>
    Entries.lookup? fields (.text "validation")
  (stated.map g.truthy).getD false

/-- The settings in an entry of a configuration. -/
def ofEntry (g : Graph) (origin : String) (base : Path) (name : String) (entry : Value) :
    Result Settings := do
  let refused (fault : ConfigFault) : Failure := .config fault (some origin)
  let some fields := g.entries? entry | fail (refused (.entryNotMapping name))
  let some spec := firstStated g fields ["spec", "file", "url"]
    | fail (refused (.missingSpec name))
  let some output := firstStated g fields ["output"] | fail (refused (.missingOutput name))
  let transformer := firstStated g fields ["transformer"]
  return {
    name := name
    spec := ← locatedSpec base (← g.textOf spec)
    output := ← located base (← g.textOf output)
    validate := validates g fields
    transformer := ← transformer.mapM fun v => do located base (← g.textOf v) }

/-- The settings of all clients of a configuration, in its order. -/
def ofDocument (g : Graph) (document : Value) (origin : String) (base : Path) :
    Result (List Settings) :=
  match g.entries? document with
  | none | some [] => fail (.config .rootNotMapping (some origin))
  | some es => es.mapM fun e => do ofEntry g origin base (← e.1.textOf) e.2

/-- The settings in the text of a configuration, whose path is given. -/
def ofText (text : String) (workingDirectory path : Path) : Result (List Settings) :=
  match Yaml.read text with
  | .ok (g, document) => ofDocument g document path.text (path.resolve workingDirectory).parent
  | .error .invalid => fail (.config .invalidYaml (some path.text))
  | .error (.malformed m) => malformed m

/-- How the paths of files end that a transformer can be loaded from. -/
def transformerEnding : String := ".py"

variable {m : Type → Type} [Monad m] [Host m]

/-- The settings in the configuration at a path. -/
def load (path : Path) : Step m (List Settings) := do
  let here ← liftM (Host.workingDirectory (m := m))
  let text ← liftM (Host.readText (m := m) path)
  match text with
  | .ok text => Step.ofResult (ofText text here path)
  | .error (.file e) => Step.ofResult (fail (.config (.unreadable e) (some path.text)))
  | .error stop => Step.ofResult (.error stop)

/-- The transformer in the file at a path. -/
def loadTransformer (path : Path) : Step m Client.Transformer := do
  let refused (fault : ConfigFault) : Step m Client.Transformer :=
    Step.ofResult (fail (.config fault (some path.text)))
  if !(← Step.ofAction (Host.isFile path)) then refused .transformerMissing
  else if !Text.endsWith transformerEnding.toList path.text.toList then
    refused .transformerNotImportable
  else
    match ← liftM (Host.loadTransformer (m := m) path) with
    | .ready transformer => return transformer
    | .failed reason => refused (.transformerFailed reason)
    | .notCallable => refused .transformerNotCallable

end Settings

end TypedClient
