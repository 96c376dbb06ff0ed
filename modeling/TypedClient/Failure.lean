import TypedClient.Document.Json
import TypedClient.Document.Literal
import TypedClient.Document.Text
import TypedClient.FileError

/-!
# Failures

What stops a run. A `Failure` is reported to the user and says where in the document it lies; a
`Malformed` document has a shape that no message covers; a `FileError` comes from reading or
writing files. `Failure.message` has the wording of every failure.
-/
namespace TypedClient

/-- What is wrong with the text, version or origin of a document. -/
inductive FormatFault where
  | unsupportedFormat (name : String)
  | invalidYaml
  | invalidJson (fault : Json.Fault)
  | rootNotMapping
  | unsupportedVersion (found : String)
  | unreachable (reason : String)
  /-- A fault in the words of whoever found it. -/
  | stated (message : String)
  deriving DecidableEq, Repr

/-- What is wrong with a configuration or with a transformer that it names. -/
inductive ConfigFault where
  | unreadable (error : FileError)
  | invalidYaml
  | rootNotMapping
  | entryNotMapping (client : String)
  | missingSpec (client : String)
  | missingOutput (client : String)
  | transformerMissing
  | transformerNotImportable
  | transformerFailed (reason : String)
  | transformerNotCallable
  /-- A fault in the words of whoever found it. -/
  | stated (message : String)
  deriving DecidableEq, Repr

/-- What is wrong with a schema. -/
inductive SchemaFault where
  | arrayWithoutItems
  /-- A fault in the words of whoever found it, about the named field. -/
  | stated (message : String) (field : Option String)
  deriving DecidableEq, Repr

inductive Failure where
  | stated (message : String) (pointer : Option String)
  | format (fault : FormatFault) (source : Option String)
  | config (fault : ConfigFault) (source : Option String)
  | schema (fault : SchemaFault) (pointer : Option String)
  | unsupportedReference (ref : String) (pointer : Option String)
  | unresolvedReference (ref : String) (pointer : Option String)
  | cyclicSchema (message : String) (pointer : Option String)
  | discriminatorMapping (ref : String) (pointer : Option String)
  | operation (message : String) (operationId pointer : Option String)
  | missingOperationId (verb : String) (route : Scalar)
  | duplicateOperationId (operationId : Scalar)
  | missingPathParameter (parameter operationId : String)
  deriving DecidableEq, Repr

/-- A document, or the place of one, whose shape is not what a step takes for granted. -/
inductive Malformed where
  /-- Fields were asked of a value that has none. -/
  | notMapping
  /-- A reference or route is no text. -/
  | notText
  /-- A reference or route is of a kind that resembles a text. -/
  | almostText
  /-- A name is no text. -/
  | notName
  /-- A value with no elements was walked over. -/
  | notIterable
  /-- A list or mapping stands where only scalars can be compared. -/
  | notComparable
  /-- A default value has no literal form. -/
  | unwritable
  /-- A whole number has too many digits to be put into a text. -/
  | numberTooLong
  /-- A default value contains itself. -/
  | circular
  | impossibleDate
  /-- A text stated to be a date is none. -/
  | notMoment
  /-- A date is written as an entry of a mapping. -/
  | nestedMoment
  | unreadableNumber
  /-- A number is beyond what can be calculated with. -/
  | numberTooLarge
  /-- A text that cannot be stored, for half a character in it. -/
  | unstorable
  /-- A document nested too deeply. -/
  | tooDeep
  /-- A code point of more than 31 bits. -/
  | codePointTooLarge
  /-- A scalar that is looked up in itself. -/
  | endless
  | emptyNumber
  | unknownTruthValue
  /-- A location whose host part is malformed. -/
  | malformedHost
  /-- A path with a null character in it. -/
  | malformedPath
  /-- The flag for the configuration has no value. -/
  | noConfiguration
  /-- The flag for the output has no value. -/
  | noOutput
  /-- A mapping grew while it was walked over. -/
  | changedWhileRead
  deriving DecidableEq, Repr

inductive Stop where
  | failure (f : Failure)
  | malformed (m : Malformed)
  | file (e : FileError)
  deriving DecidableEq, Repr

abbrev Result (α : Type) := Except Stop α

def fail {α : Type} (f : Failure) : Result α := .error (.failure f)

def malformed {α : Type} (m : Malformed) : Result α := .error (.malformed m)

def FormatFault.message : FormatFault → String
  | .unsupportedFormat name =>
    "Unsupported format '" ++ name ++ "', expected one of: yaml, json"
  | .invalidYaml => "Invalid YAML"
  | .invalidJson fault => "Invalid JSON: " ++ fault.message
  | .rootNotMapping => "Document root must be a mapping"
  | .unsupportedVersion found =>
    "Only OpenAPI 3.0 documents are supported (found version '" ++ found ++
      "'); convert older documents to OpenAPI 3.0 first"
  | .unreachable reason => "Failed to fetch document: " ++ reason
  | .stated message => message

def ConfigFault.message : ConfigFault → String
  | .unreadable error => "Failed to read config file: " ++ error.message
  | .invalidYaml => "Invalid YAML"
  | .rootNotMapping => "Config root must be a non-empty mapping of client names"
  | .entryNotMapping client => "Entry '" ++ client ++ "' must be a mapping"
  | .missingSpec client => "Entry '" ++ client ++ "' is missing 'spec'"
  | .missingOutput client => "Entry '" ++ client ++ "' is missing 'output'"
  | .transformerMissing => "Transformer file does not exist"
  | .transformerNotImportable => "Transformer file cannot be imported"
  | .transformerFailed reason => "Transformer file failed to load: " ++ reason
  | .transformerNotCallable => "Transformer must define a callable 'transform(document)'"
  | .stated message => message

namespace SchemaFault

def field : SchemaFault → Option String
  | .arrayWithoutItems => some "items"
  | .stated _ field => field

def message : SchemaFault → String
  | .arrayWithoutItems => "Field 'items': All arrays must define an 'items' schema"
  | .stated message (some field) =>
    if field = "" then message else "Field '" ++ field ++ "': " ++ message
  | .stated message none => message

end SchemaFault

namespace Failure

/-- The place in the document, or the source, that the failure is about. -/
def pointer : Failure → Option String
  | .stated _ p | .format _ p | .config _ p | .schema _ p | .unsupportedReference _ p
  | .unresolvedReference _ p | .cyclicSchema _ p | .discriminatorMapping _ p
  | .operation _ _ p => p
  | .missingOperationId _ _ | .duplicateOperationId _ | .missingPathParameter _ _ => none

/-- The message without the place. -/
def body : Failure → String
  | .stated message _ => message
  | .format fault _ => fault.message
  | .config fault _ => fault.message
  | .schema fault _ => fault.message
  | .unsupportedReference ref _ =>
    "Unsupported $ref '" ++ ref ++
      "': only references into #/components/\x7bschemas,responses,parameters,requestBodies\x7d " ++
      "are resolved"
  | .unresolvedReference ref _ => "$ref '" ++ ref ++ "' does not point to an existing component"
  | .cyclicSchema message _ => message
  | .discriminatorMapping ref _ =>
    "Discriminator mapping '" ++ ref ++ "' is outside of #/components/schemas"
  | .operation message _ _ => message
  | .missingOperationId verb route =>
    "Every operation must have an operationId - none set for " ++ verb ++ " " ++ route.display
  | .duplicateOperationId operationId =>
    "\"" ++ operationId.display ++ "\" is a duplicated operationId in the document"
  | .missingPathParameter parameter operationId =>
    "The path parameter '" ++ parameter ++ "' can't be found in parameters (" ++ operationId ++ ")"

/-- The full message, with the place in brackets before it unless there is none. -/
def message (f : Failure) : String :=
  match f.pointer with
  | some p => if p = "" then f.body else "[" ++ p ++ "] " ++ f.body
  | none => f.body

end Failure

namespace Graph

/-- The entries of a value that has to be a mapping. -/
def entries (g : Graph) (v : Value) : Result Entries :=
  match g.entries? v with
  | some es => .ok es
  | none => malformed .notMapping

/-- The entries of a mapping that may be left out: null, false and whatever is empty have none. -/
def optionalEntries (g : Graph) (v : Value) : Result Entries :=
  if g.truthy v then g.entries v else .ok []

/-- The elements of a value that has to have some. -/
def elements (g : Graph) (v : Value) : Result (List Value) :=
  match g.elements? v with
  | some vs => .ok vs
  | none => malformed .notIterable

/-- The elements of a collection that may be left out. -/
def optionalElements (g : Graph) (v : Value) : Result (List Value) :=
  if g.truthy v then g.elements v else .ok []

/-- A value as a scalar that others are compared with. -/
def comparable (g : Graph) (v : Value) : Result Scalar :=
  match g.view v with
  | .scalar s => .ok s
  | _ => malformed .notComparable

/-- The scalars among values that can all be compared, as a pair of scalars can too. -/
def comparables (g : Graph) : List Value → Result (List Scalar)
  | [] => .ok []
  | v :: vs =>
    match g.view v with
    | .scalar s => (g.comparables vs).map (s :: ·)
    | .pair _ (.scalar _) (.scalar _) => g.comparables vs
    | _ => malformed .notComparable

/-- The text of a value. -/
def textOf (g : Graph) (v : Value) : Result String :=
  if g.hasText v then .ok (g.display v) else malformed .numberTooLong

end Graph

/-- The text of a scalar. -/
def Scalar.textOf (s : Scalar) : Result String :=
  if s.hasText then .ok s.display else malformed .numberTooLong

namespace Value

/-- A value that has to be a name. -/
def asName : Value → Result String
  | .scalar (.text s) => .ok s
  | _ => malformed .notName

/-- A value that has to be a reference. -/
def asReference : Value → Result String
  | .scalar (.text s) => .ok s
  | .scalar (.bytes _) => malformed .almostText
  | _ => malformed .notText

/-- A value that has to be a route. -/
def asRoute : Value → Result String
  | .scalar (.text s) => .ok s
  | .scalar (.bytes _) | .scalar (.date _) | .scalar (.timestamp _) => malformed .almostText
  | _ => malformed .notText

end Value

end TypedClient
