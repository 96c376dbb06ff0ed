import TypedClient.Notice
import TypedClient.Operation
import TypedClient.Report
import TypedClient.Source
import TypedClient.Version

/-!
# Clients

A client is generated from a whole document: the models of its components, an interface with one
method per operation and the factory that implements it, and the models of responses that are
records. Operations are compiled in the order of the document, and the first thing that goes wrong
stops the run. `Run` also keeps what was noted on the way.
-/
namespace TypedClient

structure Api where
  name : String
  definition : String
  implementation : String
  imports : List String
  deriving DecidableEq, Repr

structure Client where
  base : String
  api : Api
  models : List Model
  report : Option Report
  deriving DecidableEq, Repr

/-- The notices of a run in order, and what it came to. -/
structure Run (α : Type) where
  notices : List Notice
  result : Result α

namespace Run

def ofResult {α : Type} (r : Result α) : Run α := ⟨[], r⟩

def andThen {α β : Type} (r : Run α) (next : α → Run β) : Run β :=
  match r.result with
  | .error s => ⟨r.notices, .error s⟩
  | .ok a =>
    let rest := next a
    ⟨r.notices ++ rest.notices, rest.result⟩

end Run

namespace Client

def basePreamble : String :=
  "/* Generated by restful-client */\n\nimport \x7b AxiosPromise, AxiosInstance \x7d from 'axios'\n"

/-- The operations under the verbs of one route. -/
def routeSlots (g : Graph) (components : Value) (route : Scalar) (item : Value) : List Slot :=
  match g.entries? item with
  | none => []
  | some es =>
    es.filterMap fun e =>
      match e.1 with
      | .text verb =>
        if Operation.verbs.contains verb && g.isMapping e.2 then
          some {
            verb := verb
            route := route
            operation := e.2
            shared := g.optionalElements (es.field "parameters")
            components := components }
        else none
      | _ => none

/-- The operations of all routes, in the order of the document. -/
def slots (g : Graph) (components : Value) (paths : Entries) : List Slot :=
  paths.flatMap fun e => routeSlots g components e.1 e.2

/-- Compiles operations one after the other, up to the first that cannot be compiled. -/
def compileAll (g : Graph) (claimed : List Scalar) : List Slot → Run (List Operation)
  | [] => .ofResult (.ok [])
  | slot :: rest =>
    let (result, claimed) := Operation.compile g slot claimed
    let compiled : Run Operation := {
      notices := match result with
        | .ok o => [.compiled slot.verb slot.route o.name]
        | .error _ => []
      result := result }
    compiled.andThen fun o =>
      (compileAll g claimed rest).andThen fun os => .ofResult (.ok (o :: os))

/-- The name of the interface, from the title of the document. -/
def title (g : Graph) (fields : Entries) : Result String := do
  let info ← g.optionalEntries (fields.field "info")
  let stated := info.field "title"
  let name := Naming.pascalCase (← if g.truthy stated then g.textOf stated else .ok "")
  return if name = "" then "Api" else name

def apiOf (title : String) (operations : List Operation) : Api where
  name := title
  definition :=
    "export interface " ++ title ++ " \x7b\n" ++ Text.lines (operations.map (·.definition)) ++
      "\n\x7d"
  implementation :=
    "export const get" ++ title ++ " = (axios: AxiosInstance): " ++ title ++ " => (\x7b\n" ++
      Text.lines (operations.map (·.implementation)) ++ "\n\x7d)"
  imports := Model.neededImports none (operations.flatMap (·.imports))

/-- The interface with its factory, and the models of responses that are records. -/
def compileApi (g : Graph) (document : Value) : Run (Api × List Model) :=
  let start : Result (String × List Slot) := do
    let fields ← g.entries document
    let title ← title g fields
    let paths ← g.optionalEntries (fields.field "paths")
    return (title, slots g (fields.field "components") paths)
  (Run.ofResult start).andThen fun (title, slots) =>
    (compileAll g [] slots).andThen fun operations =>
      .ofResult (.ok (apiOf title operations, operations.filterMap (·.responseModel)))

/-- The report on a document of which a validator says `v`. -/
def validate (g : Graph) (document : Value) (v : Validation) : Run Report :=
  let broken : List Notice := if v.breakdown.isSome then [.validatorFailed] else []
  match Report.lint g Operation.verbs document with
  | .error s => ⟨broken, .error s⟩
  | .ok warnings =>
    ⟨broken ++ [.validated v.issues.length warnings.length], .ok ⟨v.issues, warnings⟩⟩

def validateIf (g : Graph) (document : Value) : Option Validator → Run (Option Report)
  | none => .ofResult (.ok none)
  | some validator =>
    (validate g document (validator g document)).andThen fun report =>
      .ofResult (.ok (some report))

/-- The models of all components of a document. -/
def componentModels (g : Graph) (document : Value) : Result (List Model) := do
  let fields ← g.entries document
  let components ← g.optionalEntries (fields.field "components")
  Model.ofComponents g components

/-- The document with the literals of its discriminators in place. -/
def discriminated (g : Graph) (document : Value) : Run Graph :=
  let outcome := Discriminator.propagate g document
  ⟨outcome.warnings.map .unknownTarget, outcome.result⟩

/-- The client of a document whose version has been checked. -/
def ofDocument (g : Graph) (document : Value) (report : Option Report) : Run Client :=
  (discriminated g document).andThen fun g =>
    (Run.ofResult (componentModels g document)).andThen fun models =>
      (compileApi g document).andThen fun (api, responseModels) =>
        let all := models ++ responseModels
        ⟨[.generated all.length api.name], .ok ⟨basePreamble, api, all, report⟩⟩

/-- A change made to a document before anything is generated from it. -/
abbrev Transformer := Graph → Value → Result (Graph × Value)

/-- Generates the client of a document, with a report if there is a validator. -/
def generate (g : Graph) (document : Value) (transformer : Option Transformer)
    (validator : Option Validator) : Run Client :=
  let transformed :=
    match transformer with
    | some t => t g document
    | none => .ok (g, document)
  (Run.ofResult transformed).andThen fun (g, document) =>
    (Run.ofResult (Version.check g document none)).andThen fun _ =>
      (validateIf g document validator).andThen fun report => ofDocument g document report

/-- Generates the client of the document that a source holds. -/
def ofSource (s : Source) (transformer : Option Transformer) (validator : Option Validator) :
    Run Client :=
  (Run.ofResult s.read).andThen fun (g, document) => generate g document transformer validator

end Client

end TypedClient
