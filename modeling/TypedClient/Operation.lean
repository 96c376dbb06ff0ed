import TypedClient.Parameter
import TypedClient.Route

/-!
# Operations

A method of the client is compiled from the operation that stands under a verb of a route. It has a
signature in the interface and an implementation that makes the call. Operation identifiers must
differ: one that has been claimed stays claimed even if its operation cannot be compiled.
-/
namespace TypedClient

/-- An operation where it stands in a document. -/
structure Slot where
  verb : String
  route : Scalar
  operation : Value
  /-- The parameters that the route declares for all its operations. -/
  shared : Result (List Value)
  components : Value

structure Operation where
  id : String
  name : String
  verb : String
  /-- The route as a template of the call. -/
  route : String
  parameters : List Parameter
  responseType : String
  requestType : String
  imports : List String
  definition : String
  implementation : String
  /-- The named type of a response that is a record. -/
  responseModel : Option Model
  deriving DecidableEq, Repr

namespace Operation

/-- The verbs that get a method. -/
def verbs : List String := ["get", "post", "put", "patch", "delete"]

/-- The verbs whose call takes the request body as its second argument. -/
def bodyVerbs : List String := ["post", "put", "patch"]

/-- The identifier of an operation, unless it has none or another one has claimed it. -/
def claim (g : Graph) (slot : Slot) (es : Entries) (claimed : List Scalar) : Result Scalar := do
  let id := es.field "operationId"
  if !g.truthy id then
    let _ ← slot.route.textOf
    fail (.missingOperationId slot.verb slot.route)
  else
    let id ← g.comparable id
    if claimed.any id.same then
      let _ ← id.textOf
      fail (.duplicateOperationId id)
    else return id

/-- The route as it is called, and the name of a placeholder cut off its end. -/
def calledRoute (verb route : String) : List Char × Option String :=
  if verb = "delete" then
    match Route.trailing? route.toList with
    | some (before, name) => (before, some (String.ofList name))
    | none => (route.toList, none)
  else (route.toList, none)

/-- The parameter of a placeholder, among the declared ones. -/
def pathParameter (g : Graph) (pointer id : String) (declared : List Declaration) (name : String) :
    Result Parameter :=
  match declared.reverse.find? fun d => d.isIn g "path" && d.name = name with
  | some d =>
    Parameter.ofFields g (pointer ++ "/parameters/" ++ name)
      (some (Naming.placeholderIdentifier name)) d.fields
  | none => fail (.missingPathParameter name id)

/-- The parameter that holds the request body, if there is one. -/
def bodyParameter? (request : Payload) : Option Parameter :=
  if request.text = "" then none
  else
    let name := Naming.camelCase request.text
    some {
      name := if name = "" then "body" else name
      type := ⟨request.text, request.imports, []⟩
      required := true }

/-- The responses that report success, each with its place in the document. -/
def successes (pointer : String) (responses : Entries) : List (String × Value) :=
  (responses.filter fun e => e.1.display.toList.head? = some '2').map fun e =>
    (pointer ++ "/responses/" ++ e.1.display, e.2)

/-- What the responses that report success contribute. A code without a text stops the walk over
the responses, behind those before it. -/
def successPayload (g : Graph) (pointer : String) (responses : Entries) : Result Payload := do
  let payload ← Payload.ofItems g
    (successes pointer (responses.takeWhile fun e => e.1.hasText))
  if responses.all fun e => e.1.hasText then return payload else malformed .numberTooLong

/-- The parameter that holds the query parameters, if there are any. -/
def queryParameter? (g : Graph) (pointer : String) (query : List Declaration) :
    Result (Option Parameter) :=
  if query.isEmpty then .ok none else (Parameter.ofQuery g pointer query).map some

/-- The type of a response that reports success. -/
def responseText (success : Payload) : String :=
  if success.text = "" then Contribution.unknownType else success.text

/-- The named type of a response that is a record, for the component name of an operation. -/
def responseModel? (componentName : String) (success : Payload) : Option Model :=
  if (responseText success).toList.contains '\x7b' then
    some (Model.ofText (componentName ++ "Response") (responseText success) success.imports)
  else none

/-- The summary of an operation, if it has one. -/
def summary? (g : Graph) (es : Entries) : Result (Option String) :=
  let summary := es.field "summary"
  if g.truthy summary then (g.textOf summary).map some else .ok none

/-- What the options of a call say. -/
def callOptions (verb : String) (body : Option Parameter) (hasQuery : Bool)
    (accept : Option MediaType) : List String :=
  (match body with
    | some b => if bodyVerbs.contains verb then [] else ["data: " ++ b.name]
    | none => []) ++
  (if hasQuery then ["params"] else []) ++
  (match accept with
    | some m =>
      ["responseType: 'arraybuffer'", "headers: \x7b Accept: '" ++ m.name ++ "' \x7d"]
    | none => [])

/-- The arguments of a call: the address, the body where the verb takes one, the options. -/
def callArguments (verb template : String) (body : Option Parameter) (options : List String) :
    List String :=
  let takesBody := bodyVerbs.contains verb
  ["`" ++ template ++ "`"] ++
  (match body with
    | some b => if takesBody then [b.name] else []
    | none => if takesBody && !options.isEmpty then ["undefined"] else []) ++
  (if options.isEmpty then [] else ["\x7b " ++ Text.joinWith ", " options ++ " \x7d"])

def definitionText (summary : Option String) (name signature type : String) : String :=
  Text.lines
    ((summary.map fun s => "  // " ++ s).toList ++
      ["  " ++ name ++ "(" ++ signature ++ "): AxiosPromise<" ++ type ++ ">;"])

def implementationText (name signature type verb call : String) : String :=
  Text.lines
    ["  " ++ name ++ "(" ++ signature ++ "): AxiosPromise<" ++ type ++ "> \x7b",
     "    return axios." ++ verb ++ "(" ++ call ++ ");",
     "  \x7d,"]

/-- Compiles an operation whose identifier has been claimed. -/
def compileClaimed (g : Graph) (slot : Slot) (es : Entries) (claimed : Scalar) :
    Result Operation := do
  let route ← (Value.scalar slot.route).asRoute
  let pointer := "#/paths/" ++ Pointer.escape route ++ "/" ++ slot.verb
  let id ← (Value.scalar claimed).asName
  let componentName := Naming.pascalCase id
  let name := Naming.camelCase componentName
  let (called, trailing) := calledRoute slot.verb route
  let template := Route.template called
  let declared ← Declaration.merge g slot.components pointer slot.shared
    (g.optionalElements (es.field "parameters"))
  let query := declared.filter (Declaration.isIn g "query")
  let inPath ← (Route.placeholders called ++ trailing.toList).mapM
    (pathParameter g pointer id declared)
  let request ← Payload.ofItems g [(pointer ++ "/requestBody", es.field "requestBody")]
  let body := bodyParameter? request
  let inQuery ← queryParameter? g pointer query
  let parameters := Parameter.sort (inPath ++ body.toList ++ inQuery.toList)
  let responses ← g.optionalEntries (es.field "responses")
  let success ← successPayload g pointer responses
  let responseModel := responseModel? componentName success
  let returned := (responseModel.map (·.name)).getD (responseText success)
  let returnedImports := (responseModel.map fun m => [m.name]).getD success.imports
  let comment ← summary? g es
  let arguments ← parameters.mapM (Parameter.implementation g)
  let options := callOptions slot.verb body (!query.isEmpty) success.binary?
  return {
    id := id
    name := name
    verb := slot.verb
    route := template
    parameters := parameters
    responseType := returned
    requestType := request.text
    imports := Text.distinct ((parameters.flatMap fun p => p.type.imports) ++ returnedImports)
    definition := definitionText comment name
      (Text.joinWith ", " (parameters.map Parameter.definition)) returned
    implementation := implementationText name (Text.joinWith ", " arguments) returned slot.verb
      (Text.joinWith ", " (callArguments slot.verb template body options))
    responseModel := responseModel }

/-- Compiles an operation and gives the identifiers that are claimed afterwards. -/
def compile (g : Graph) (slot : Slot) (claimed : List Scalar) :
    Result Operation × List Scalar :=
  match g.entries slot.operation with
  | .error s => (.error s, claimed)
  | .ok es =>
    match claim g slot es claimed with
    | .error s => (.error s, claimed)
    | .ok id => (compileClaimed g slot es id, claimed ++ [id])

end Operation

end TypedClient
