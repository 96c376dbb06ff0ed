import TypedClient.Options
import TypedClient.Output
import TypedClient.Settings

/-!
# Commands

`generate` writes the clients that a configuration describes, or the one that its flags describe;
`validate` prints the report on a document. A client is written only once all of it has been
generated, and the first client that cannot be generated ends the command: what stops it is told on
one line, and the exit code is one.
-/
namespace TypedClient.Command

/-- How a command ends. -/
inductive Exit where
  | code (n : Nat)
  /-- A document was malformed in a way that no message covers. -/
  | defect (m : Malformed)
  deriving DecidableEq, Repr

def specFlag : Flag := { name := "--spec", takesValue := true }

def generateFlags : List Flag :=
  [specFlag, { name := "--output", takesValue := true }, { name := "--config", takesValue := true },
   { name := "--validate" }, { name := "--transformer", takesValue := true },
   { name := "--verbose" }]

def validateFlags : List Flag := [specFlag]

def defaultOutput : String := "src/generated"

/-- The location that stands for none. -/
def noLocation : String := "[]"

/-- The settings of the one client that flags describe. -/
def settingsOf (o : Options) (spec output : String) : Settings where
  name :=
    let stem := (Path.ofText spec).stem
    if stem = "" then "api" else stem
  spec := spec
  output := Path.ofText output
  validate := o.has "--validate"
  transformer := (o.value? "--transformer").join.map Path.ofText

/-- The names of clients that a configuration does not have, ordered by their codes. -/
def unknownClients (names : List String) (all : List Settings) : List String :=
  let unknown := names.filter fun n => !all.any fun s => s.name = n
  (Text.distinct unknown).mergeSort Text.isBeforeOrSame

/-- The clients of the given names, or all if none is named. -/
def chosen (names : List String) (all : List Settings) : List Settings :=
  if names.isEmpty then all else all.filter fun s => names.contains s.name

def generatedLine (s : Settings) (c : Client) : String :=
  "Generated " ++ s.name ++ " client (" ++ toString c.models.length ++ " model(s)) -> " ++
    s.output.text

/-- A report for reading; `clean` stands for one without findings. -/
def reportText (clean : String) (r : Report) : String := if r.isEmpty then clean else r.text

section

variable {m : Type → Type} [Monad m] [Host m]

/-- The document at a location, with the format that it is taken to be in. -/
def readSource (location : String) : Step m Source := do
  let text ←
    if Location.isRemote location then
      Step.ofAction do
        match ← Host.fetch location with
        | .ok text => return .ok text
        | .error reason => return fail (.format (.unreachable reason) (some location))
    else Step.ofAction (Host.readText (Path.ofText location))
  let format ← Step.ofResult (Location.format location (some text))
  return ⟨text, format.name, some location⟩

/-- Writes the files of a client below a directory. -/
def writeClient (c : Client) (output : Path) : Step m Unit := do
  Step.ofAction (Host.makeDirectories (output.append (Path.ofText "models")))
  (Output.files c).forM fun f =>
    Step.ofAction (Host.writeFile (output.append (Path.ofText f.1)) f.2)

/-- The client that settings describe, with everything noted on the way told. -/
def generateClient (verbose : Bool) (s : Settings) : Step m Client := do
  let transformer ← s.transformer.mapM Settings.loadTransformer
  let source ← readSource s.spec
  let validator ← liftM (Host.validator (m := m))
  let run := Client.ofSource source transformer (if s.validate then some validator else none)
  liftM ((run.notices.filterMap (Notice.line? verbose)).forM (Host.report (m := m)))
  Step.ofResult run.result

/-- Generates and writes one client. -/
def runClient (verbose : Bool) (s : Settings) : Step m Unit := do
  let c ← generateClient verbose s
  writeClient c s.output
  match c.report with
  | some r => liftM (Host.print (m := m) (reportText "Validation passed with no findings" r))
  | none => pure ()
  liftM (Host.print (m := m) (generatedLine s c))

/-- Ends a command that something has stopped. -/
def refuse (stop : Stop) : m Exit :=
  match stop with
  | .failure f => do
    Host.report ("Error: " ++ f.message)
    return .code 1
  | .file e => do
    Host.report ("Error: " ++ e.message)
    return .code 1
  | .malformed d => return .defect d

/-- Generates clients one after the other, up to the first that cannot be generated. -/
def runClients (verbose : Bool) (clients : List Settings) : m Exit := do
  match ← (clients.forM (runClient verbose) : Step m Unit).run with
  | .ok () => return .code 0
  | .error stop => refuse stop

/-- Generates the clients of a configuration. -/
def generateConfigured (o : Options) (config : Path) : m Exit := do
  match ← (Settings.load config : Step m (List Settings)).run with
  | .error stop => refuse stop
  | .ok all =>
    match unknownClients o.words all with
    | [] => runClients (o.has "--verbose") (chosen o.words all)
    | unknown =>
      Host.report ("Error: unknown client(s) in config: " ++ Text.joinWith ", " unknown)
      return .code 1

/-- Generates the client that flags describe. Without an output it cannot be written. -/
def generateStated (o : Options) (spec : String) : m Exit :=
  let verbose := o.has "--verbose"
  match o.value? "--output" with
  | some none => do
    let run : Step m Unit := do
      let _ ← generateClient verbose (settingsOf o spec defaultOutput)
      Step.ofResult (malformed .noOutput)
    match ← run.run with
    | .ok () => return .code 0
    | .error stop => refuse stop
  | some (some output) => runClients verbose [settingsOf o spec output]
  | none => runClients verbose [settingsOf o spec defaultOutput]

def generateWith (o : Options) : m Exit :=
  match o.value? "--config", o.value? "--spec" with
  | some (some config), _ => generateConfigured o (Path.ofText config)
  | some none, _ => return .defect .noConfiguration
  | none, some spec => generateStated o (spec.getD noLocation)
  | none, none => do
    Host.report "Error: either --spec or --config is required"
    return .code 1

def generate (arguments : List String) : m Exit :=
  match Options.read generateFlags true arguments with
  | .help => return .code 0
  | .refused => return .code 2
  | .options o => generateWith o

/-- Prints the report on a document; the exit code tells whether there are errors. -/
def validateDocument (g : Graph) (document : Value) : m Exit := do
  let validator ← Host.validator
  match (Client.validate g document (validator g document)).result with
  | .error stop => refuse stop
  | .ok report =>
    Host.print (reportText "No findings" report)
    return .code (if report.ok then 0 else 1)

def validateLocation (location : String) : m Exit := do
  let document : Step m (Graph × Value) := do
    let source ← readSource location
    Step.ofResult source.read
  match ← document.run with
  | .error stop => refuse stop
  | .ok (g, document) => validateDocument g document

def validate (arguments : List String) : m Exit :=
  match Options.read validateFlags false arguments with
  | .help => return .code 0
  | .refused => return .code 2
  | .options o =>
    match o.value? "--spec" with
    | some location => validateLocation (location.getD noLocation)
    | none => return .code 2

def helpText : String :=
  Text.lines [
    "",
    "Client generator CLI.",
    "",
    "Usage:",
    "    python -m client_codegen <command> [options]",
    "",
    "Commands:",
    "    generate    Generate a TypeScript client from an OpenAPI document",
    "    validate    Run the advisory OpenAPI validator on a document",
    "",
    "Examples:",
    "    python -m client_codegen generate --spec openapi.yaml --output src/api",
    "    python -m client_codegen generate --config codegen.yaml petstore",
    "    python -m client_codegen validate --spec https://example.com/openapi.json",
    "",
    "Available commands:",
    "  generate     Generate a TypeScript client from an OpenAPI document",
    "  validate     Run the advisory OpenAPI validator on a document",
    "",
    "Use '<command> --help' for command-specific options."]

/-- Runs the command that the first argument names. -/
def run (arguments : List String) : m Exit :=
  match arguments with
  | [] => do
    Host.print helpText
    return .code 0
  | name :: rest =>
    if name = "-h" || name = "--help" then do
      Host.print helpText
      return .code 0
    else if name = "generate" then generate rest
    else if name = "validate" then validate rest
    else do
      Host.print ("Unknown command: " ++ name)
      Host.print "Available commands: generate, validate"
      return .code 1

end

end TypedClient.Command
