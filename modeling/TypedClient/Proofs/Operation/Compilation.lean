import TypedClient.Operation
import TypedClient.Proofs.Failure.Success

/-!
# Compiled operations

The identifiers that have been claimed matter to an operation in one way: its own must not be among
them. An operation that compiles has an identifier that is not empty, and a model of its response
exactly where the type of the responses that report success has a brace in it.
-/
namespace TypedClient

theorem Scalar.text_same_iff {s : String} {k : Scalar} :
    (Scalar.text s).same k = true ↔ k = .text s := by
  rw [← same_text_iff, same, same, decide_eq_true_eq, decide_eq_true_eq, eq_comm]

namespace Operation

/-- What the responses of an operation that report success come to. -/
def success (g : Graph) (slot : Slot) : Result Payload := do
  let route ← (Value.scalar slot.route).asRoute
  let responses ← g.optionalEntries ((g.fields slot.operation).field "responses")
  successPayload g ("#/paths/" ++ Pointer.escape route ++ "/" ++ slot.verb) responses

/-- The operation is compiled from the slot. -/
structure CompiledFrom (g : Graph) (slot : Slot) (o : Operation) : Prop where
  compiled : (compile g slot []).1 = .ok o
  verb : o.verb = slot.verb
  id : (g.fields slot.operation).field "operationId" = .text o.id
  named : o.id ≠ ""
  /-- Its response has a model if the type of the responses that report success has a brace. -/
  model : ∃ payload, success g slot = .ok payload ∧
    o.responseModel =
      if '\x7b' ∈ (responseText payload).toList then
        some (Model.ofText (Naming.pascalCase o.id ++ "Response") (responseText payload)
          payload.imports)
      else none

variable {g : Graph} {slot : Slot} {o : Operation} {es : Entries} {id : Scalar}

theorem claim_eq_ok {claimed : List Scalar} (claims : claim g slot es claimed = .ok id) :
    g.truthy (es.field "operationId") = true ∧ g.comparable (es.field "operationId") = .ok id ∧
      claimed.any id.same = false := by
  unfold claim at claims
  simp only at claims
  split at claims
  · obtain ⟨_, -, claims⟩ := Except.bind_eq_ok claims
    cases claims
  · next given =>
    obtain ⟨id', comparable, claims⟩ := Except.bind_eq_ok claims
    split at claims
    · obtain ⟨_, -, claims⟩ := Except.bind_eq_ok claims
      cases claims
    · next free =>
      cases claims
      exact ⟨by simpa using given, comparable, by simpa using free⟩

theorem claim_of {claimed : List Scalar} (given : g.truthy (es.field "operationId") = true)
    (comparable : g.comparable (es.field "operationId") = .ok id)
    (free : claimed.any id.same = false) : claim g slot es claimed = .ok id := by
  unfold claim
  simp only [given, comparable, Except.ok_bind, free, Bool.not_true, Bool.false_eq_true, if_false]
  rfl

theorem compile_eq {claimed next : List Scalar} :
    compile g slot claimed = (.ok o, next) ↔
      ∃ es id, g.entries slot.operation = .ok es ∧ claim g slot es claimed = .ok id ∧
        compileClaimed g slot es id = .ok o ∧ next = claimed ++ [id] := by
  constructor
  · intro compiled
    unfold compile at compiled
    split at compiled
    · cases compiled
    · next es entries =>
      split at compiled
      · cases compiled
      · next id claims =>
        obtain ⟨claimedOk, rfl⟩ := Prod.mk.inj compiled
        exact ⟨es, id, entries, claims, claimedOk, rfl⟩
  · rintro ⟨es, id, entries, claims, compiled, rfl⟩
    simp only [compile, entries, claims, compiled]

/-- The parts that an operation is compiled from. -/
structure Parts where
  route : String
  declared : List Declaration
  inPath : List Parameter
  request : Payload
  inQuery : Option Parameter
  responses : Entries
  success : Payload
  comment : Option String
  /-- The parameters as the implementation takes them. -/
  arguments : List String

/-- The names of the placeholders of a route, as a verb calls it. -/
def placeholders (verb route : String) : List String :=
  Route.placeholders (calledRoute verb route).1 ++ (calledRoute verb route).2.toList

/-- Where an operation stands in its document, under its route and verb. -/
def place (route : String) (slot : Slot) : String :=
  "#/paths/" ++ Pointer.escape route ++ "/" ++ slot.verb

/-- The parameters of an operation as they come: of the path, for the body, for the query. -/
def Parts.given (parts : Parts) : List Parameter :=
  parts.inPath ++ (bodyParameter? parts.request).toList ++ parts.inQuery.toList

/-- The parameters of an operation in order. -/
def Parts.parameters (parts : Parts) : List Parameter := Parameter.sort parts.given

/-- The arguments of the call that a method makes. -/
def Parts.call (parts : Parts) (g : Graph) (verb template : String) : List String :=
  callArguments verb template (bodyParameter? parts.request)
    (callOptions verb (bodyParameter? parts.request)
      (!(parts.declared.filter (Declaration.isIn g "query")).isEmpty) parts.success.binary?)

/-- The operation is compiled from these parts, which come from the entries of its slot. -/
structure Parts.Of (parts : Parts) (g : Graph) (slot : Slot) (es : Entries) (o : Operation) :
    Prop where
  route : (Value.scalar slot.route).asRoute = .ok parts.route
  declared : Declaration.merge g slot.components (place parts.route slot) slot.shared
    (g.optionalElements (es.field "parameters")) = .ok parts.declared
  inPath : (placeholders slot.verb parts.route).mapM
    (pathParameter g (place parts.route slot) o.id parts.declared) = .ok parts.inPath
  request : Payload.ofItems g [(place parts.route slot ++ "/requestBody", es.field "requestBody")] =
    .ok parts.request
  inQuery : queryParameter? g (place parts.route slot)
    (parts.declared.filter (Declaration.isIn g "query")) = .ok parts.inQuery
  responses : g.optionalEntries (es.field "responses") = .ok parts.responses
  success : successPayload g (place parts.route slot) parts.responses = .ok parts.success
  arguments : o.parameters.mapM (Parameter.implementation g) = .ok parts.arguments
  verb : o.verb = slot.verb
  template : o.route = Route.template (calledRoute slot.verb parts.route).1
  requestType : o.requestType = parts.request.text
  parameters : o.parameters = parts.parameters
  model : o.responseModel = responseModel? (Naming.pascalCase o.id) parts.success
  imports : o.imports = Text.distinct ((o.parameters.flatMap fun p => p.type.imports) ++
    (o.responseModel.map fun m => [m.name]).getD parts.success.imports)
  definition : o.definition = definitionText parts.comment o.name
    (Text.joinWith ", " (o.parameters.map Parameter.definition)) o.responseType
  implementation : o.implementation = implementationText o.name
    (Text.joinWith ", " parts.arguments) o.responseType o.verb
    (Text.joinWith ", " (parts.call g o.verb o.route))

/-- The method has its name from the identifier of the operation, and returns what is a success. -/
structure Parts.Signs (parts : Parts) (o : Operation) : Prop where
  name : o.name = Naming.camelCase (Naming.pascalCase o.id)
  responseType : o.responseType =
    (o.responseModel.map (·.name)).getD (responseText parts.success)

/-- What an operation and its method are made of if it compiles with a claimed identifier. -/
theorem exists_signed_parts (compiled : compileClaimed g slot es id = .ok o) :
    id = .text o.id ∧ ∃ parts : Parts, parts.Of g slot es o ∧ parts.Signs o := by
  unfold compileClaimed at compiled
  obtain ⟨route, called, compiled⟩ := Except.bind_eq_ok compiled
  obtain ⟨name, named, compiled⟩ := Except.bind_eq_ok compiled
  simp only at compiled
  obtain ⟨ds, declared, compiled⟩ := Except.bind_eq_ok compiled
  obtain ⟨inPath, placeholders, compiled⟩ := Except.bind_eq_ok compiled
  obtain ⟨request, requested, compiled⟩ := Except.bind_eq_ok compiled
  obtain ⟨inQuery, queried, compiled⟩ := Except.bind_eq_ok compiled
  obtain ⟨responses, listed, compiled⟩ := Except.bind_eq_ok compiled
  obtain ⟨payload, succeeds, compiled⟩ := Except.bind_eq_ok compiled
  obtain ⟨comment, -, compiled⟩ := Except.bind_eq_ok compiled
  obtain ⟨arguments, taken, compiled⟩ := Except.bind_eq_ok compiled
  obtain rfl := Except.ok.inj compiled
  refine ⟨Value.scalar.inj (Value.asName_eq_ok named),
    ⟨route, ds, inPath, request, inQuery, responses, payload, comment, arguments⟩, ?_,
    { name := by dsimp only
      responseType := by dsimp only }⟩
  exact
    { route := called
      declared := declared
      inPath := placeholders
      request := requested
      inQuery := queried
      responses := listed
      success := succeeds
      arguments := taken
      verb := rfl
      template := rfl
      requestType := rfl
      parameters := rfl
      model := rfl
      imports := rfl
      definition := by dsimp only
      implementation := by dsimp only [Parts.call] }

/-- What an operation is made of that compiles with a claimed identifier. -/
theorem exists_parts (compiled : compileClaimed g slot es id = .ok o) :
    id = .text o.id ∧ ∃ parts : Parts, parts.Of g slot es o := by
  obtain ⟨claimed, parts, made, -⟩ := exists_signed_parts compiled
  exact ⟨claimed, parts, made⟩

/-- What an operation is made of that compiles beside claimed identifiers. -/
theorem exists_parts_of_compile {claimed : List Scalar}
    (success : (compile g slot claimed).1 = .ok o) :
    ∃ parts : Parts, parts.Of g slot (g.fields slot.operation) o := by
  obtain ⟨es, id, entries, -, compiled, -⟩ := compile_eq.mp (Prod.ext success rfl)
  rw [Graph.fields_of_entries entries]
  exact (exists_parts compiled).2

/-- An operation compiles beside claimed identifiers if it compiles alone and its identifier is none
of them; then its identifier is claimed too. -/
theorem compile_eq_ok_iff {ids : List String} {next : List Scalar} :
    compile g slot (ids.map .text) = (.ok o, next) ↔
      (compile g slot []).1 = .ok o ∧ o.id ∉ ids ∧ next = (ids ++ [o.id]).map .text := by
  have free : ∀ ids : List String, (ids.map Scalar.text).any (Scalar.text o.id).same = false ↔
      o.id ∉ ids := by
    intro ids
    rw [Bool.eq_false_iff, ne_eq, List.any_eq_true]
    simp [Scalar.text_same_iff]
  constructor
  · intro success
    obtain ⟨es, id, entries, claims, compiled, rfl⟩ := compile_eq.mp success
    obtain ⟨given, comparable, new⟩ := claim_eq_ok claims
    obtain ⟨rfl, -⟩ := exists_parts compiled
    refine ⟨?_, (free ids).mp new, by simp⟩
    rw [compile_eq.mpr ⟨es, _, entries, claim_of given comparable rfl, compiled, rfl⟩]
  · rintro ⟨alone, new, rfl⟩
    obtain ⟨es, id, entries, claims, compiled, -⟩ := compile_eq.mp (Prod.ext alone rfl)
    obtain ⟨given, comparable, -⟩ := claim_eq_ok claims
    obtain ⟨rfl, -⟩ := exists_parts compiled
    exact compile_eq.mpr
      ⟨es, _, entries, claim_of given comparable ((free ids).mpr new), compiled, by simp⟩

theorem compiledFrom (alone : (compile g slot []).1 = .ok o) : CompiledFrom g slot o := by
  obtain ⟨es, id, entries, claims, compiled, -⟩ := compile_eq.mp (Prod.ext alone rfl)
  obtain ⟨given, comparable, -⟩ := claim_eq_ok claims
  obtain ⟨rfl, parts, made⟩ := exists_parts compiled
  rw [← Graph.fields_of_entries entries] at given comparable made
  have identified : (g.fields slot.operation).field "operationId" = .text o.id := by
    unfold Graph.comparable at comparable
    split at comparable
    · next s view =>
      cases comparable
      exact Graph.eq_text_of_view view
    · cases comparable
  refine ⟨alone, made.verb, identified, ?_, parts.success, ?_, ?_⟩
  · rintro empty
    rw [identified, empty] at given
    cases given
  · rw [success, made.route, Except.ok_bind, made.responses, Except.ok_bind, ← made.success]
    rfl
  · rw [made.model, responseModel?]
    simp only [List.contains_eq_mem, decide_eq_true_eq]

/-- The responses of an operation that compiles are a mapping, if there are any, and all their codes
have a text. -/
theorem of_success {payload : Payload} (succeeds : success g slot = .ok payload) :
    ∃ route responses, (Value.scalar slot.route).asRoute = .ok route ∧
      g.optionalEntries ((g.fields slot.operation).field "responses") = .ok responses ∧
      ∀ e ∈ responses, e.1.hasText = true := by
  obtain ⟨route, called, succeeds⟩ := Except.bind_eq_ok succeeds
  obtain ⟨responses, listed, succeeds⟩ := Except.bind_eq_ok succeeds
  obtain ⟨payload', -, succeeds⟩ := Except.bind_eq_ok succeeds
  split at succeeds
  · next texts => exact ⟨route, responses, called, listed, List.all_eq_true.mp texts⟩
  · cases succeeds

end Operation

end TypedClient
