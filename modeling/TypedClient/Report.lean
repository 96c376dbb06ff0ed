import TypedClient.Failure
import TypedClient.Pointer

/-!
# Reports

A report holds what a validator found and what the library itself notes about operations: that one
has neither summary nor description, or no response for success. A report never stops a run; a
validator that breaks down is one more finding.
-/
namespace TypedClient

structure Issue where
  message : String
  path : String
  deriving DecidableEq, Repr

/-- What a validator says about a document: its findings with their places, and how it broke down
if it did. -/
structure Validation where
  findings : List (String × List String) := []
  breakdown : Option String := none
  deriving DecidableEq, Repr

/-- What is asked about documents. It looks at a document and leaves it as it is. -/
abbrev Validator := Graph → Value → Validation

structure Report where
  errors : List Issue := []
  warnings : List Issue := []
  deriving DecidableEq, Repr

namespace Validation

/-- Why a validator is taken to have failed at a number that has no text. -/
def numberTooLong : String :=
  "Exceeds the limit (4300 digits) for integer string conversion; use " ++
    "sys.set_int_max_str_digits() to increase the limit"

/-- The findings up to the first whose place has no text. -/
def understood (findings : List (String × List Scalar)) : List (String × List Scalar) :=
  findings.takeWhile fun f => f.2.all Scalar.hasText

/-- What a validator says whose findings lie at keys and numbers of the document. Each of these is kept
as its text; at the first that has none the validator counts as broken down. -/
def ofFindings (findings : List (String × List Scalar)) (breakdown : Option String) :
    Validation where
  findings := (understood findings).map fun f => (f.1, f.2.map Scalar.display)
  breakdown :=
    if (understood findings).length < findings.length then some numberTooLong else breakdown

def issues (v : Validation) : List Issue :=
  v.findings.map (fun f => ⟨f.1, Pointer.ofSegments f.2⟩) ++
    (v.breakdown.map fun reason => Issue.mk ("Validator failed: " ++ reason) "#").toList

end Validation

namespace Report

def ok (r : Report) : Bool := r.errors.isEmpty

def isEmpty (r : Report) : Bool := r.errors.isEmpty && r.warnings.isEmpty

def missingSummary : String := "Operations should have a summary or description"

def missingSuccess : String :=
  "Operations should define at least one successful (2xx) response"

/-- Whether the code of a response reports success. -/
def isSuccess (g : Graph) (code : Value) : Result Bool := do
  return (← g.textOf code).toList.head? = some '2'

/-- Whether one of several codes reports success; those behind it are not looked at. -/
def hasSuccess (g : Graph) : List Value → Result Bool
  | [] => .ok false
  | code :: rest => do
    if ← isSuccess g code then return true else hasSuccess g rest

/-- What is to be noted about the operation under a verb of a route, if there is one. -/
def lintOperation (g : Graph) (route : Scalar) (verb : String) (operation : Value) :
    Result (List Issue) :=
  match g.entries? operation with
  | none => .ok []
  | some es => do
    let route ← (Value.scalar route).asRoute
    let path := "#/paths/" ++ Pointer.escape route ++ "/" ++ verb
    let described := g.truthy (es.field "summary") || g.truthy (es.field "description")
    let codes ← g.optionalElements (es.field "responses")
    let succeeds ← hasSuccess g codes
    return (if described then [] else [⟨missingSummary, path⟩]) ++
      (if succeeds then [] else [⟨missingSuccess, path ++ "/responses"⟩])

/-- What is to be noted about the operations of a route, by verb. -/
def lintRoute (g : Graph) (verbs : List String) (route : Scalar) (item : Value) :
    Result (List Issue) :=
  match g.entries? item with
  | none => .ok []
  | some es => do
    let issues ← verbs.mapM fun verb => lintOperation g route verb (es.field verb)
    return issues.flatten

def lint (g : Graph) (verbs : List String) (document : Value) : Result (List Issue) := do
  let fields ← g.entries document
  let paths ← g.optionalEntries (fields.field "paths")
  let issues ← paths.mapM fun e => lintRoute g verbs e.1 e.2
  return issues.flatten

def issueLines (title : String) (issues : List Issue) : List String :=
  if issues.isEmpty then []
  else title :: issues.flatMap fun i => ["Message : " ++ i.message, "Path    : " ++ i.path, ""]

/-- The report for reading: warnings first, each issue in a block of its own. -/
def text (r : Report) : String :=
  let whole := Text.lines
    (issueLines "(!) Warnings" r.warnings ++ issueLines "(!) Errors" r.errors)
  String.ofList (Text.dropEndWhile (· = '\n') whole.toList)

end Report

end TypedClient
