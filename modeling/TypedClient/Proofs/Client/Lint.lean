import Mathlib.Data.List.Perm.Basic
import TypedClient.Proofs.Client.Pointers
import TypedClient.Proofs.Report.Lint

/-!
# What is linted and what is compiled

The operations of a document are linted by route and then by verb, and compiled by route and then in the
order of the document. Both times they are the same operations, as a mapping has each key once. What is
noted about one of them is told by its summary, its description and the codes of its responses, and the
path of the note is read back to where the operation stands. An operation without a response for success
is compiled with an unknown response.
-/
namespace TypedClient

open Pointer (written escape readFragment?)

namespace Report

variable (g : Graph)

/-- The operation has a summary or a description that says something. -/
def isDescribed (operation : Value) : Bool :=
  g.truthy ((g.fields operation).field "summary") ||
    g.truthy ((g.fields operation).field "description")

/-- The operation has a response whose code, as a text, begins with `2`. -/
def declaresSuccess (operation : Value) : Bool :=
  (g.fields ((g.fields operation).field "responses")).any fun e =>
    e.1.display.toList.head? = some '2'

/-- What is to be noted about the operation at a place, each note with its own place. -/
def notes (place : List String) (operation : Value) : List (String × List String) :=
  (if isDescribed g operation then [] else [(missingSummary, place)]) ++
    (if declaresSuccess g operation then [] else [(missingSuccess, place ++ ["responses"])])

/-- The issue for a note. -/
def issueOf (note : String × List String) : Issue := ⟨note.1, "#" ++ written (note.2.map escape)⟩

/-- The issues at a place: none where no operation stands. -/
def issuesAt (place : List String) (operation : Value) : List Issue :=
  if g.isMapping operation then (notes g place operation).map issueOf else []

/-- The path of an issue is read back to the place of its note. -/
theorem readFragment?_issueOf (note : String × List String) :
    readFragment? (issueOf note).path = some note.2 := by
  rw [issueOf, Pointer.readFragment?_append, Pointer.read?_written_escape]

variable {g}

/-- Of an operation whose responses are a mapping, if there are any, what is to be noted is noted. -/
theorem lintOperation_eq {route verb : String} {operation : Value} {responses : Entries}
    (known : verb ∈ Operation.verbs) (mapping : g.isMapping operation = true)
    (listed : g.optionalEntries ((g.fields operation).field "responses") = .ok responses)
    (texts : ∀ e ∈ responses, e.1.hasText = true) :
    lintOperation g (.text route) verb operation =
      .ok ((notes g ["paths", route, verb] operation).map issueOf) := by
  obtain ⟨es, entries⟩ := Option.isSome_iff_exists.mp mapping
  have fields := Graph.fields_of_entries? entries
  have place : "#/paths/" ++ escape route ++ "/" ++ verb =
      "#" ++ written (["paths", route, verb].map escape) :=
    (@Operation.place_eq ⟨verb, .text route, operation, .ok [], .null⟩ known route).1
  have below : "#/paths/" ++ escape route ++ "/" ++ verb ++ "/responses" =
      "#" ++ written ((["paths", route, verb] ++ ["responses"]).map escape) := by
    have plain : written (["responses"].map escape) = "/responses" := by decide +kernel
    rw [List.map_append, Pointer.written_append, plain, ← String.append_assoc, ← place]
  have success : declaresSuccess g operation =
      responses.any fun e => e.1.display.toList.head? = some '2' := by
    rw [declaresSuccess, Graph.fields_of_optionalEntries listed]
  have routed : (Value.scalar (.text route)).asRoute = .ok route := rfl
  simp only [lintOperation, entries, routed, Except.ok_bind]
  rw [← fields, Graph.optionalElements_of_optionalEntries listed, Except.ok_bind,
    hasSuccess_of_entries texts, ← success, Except.ok_bind, ← isDescribed, below, place]
  unfold notes
  cases isDescribed g operation <;> cases declaresSuccess g operation <;> rfl

end Report

/-- The segments of the place of an operation. -/
def Endpoint.place (e : Endpoint) : List String := ["paths", e.route.display, e.verb.display]

namespace Client

variable {g : Graph} {document paths : Value}

/-- The verbs under one route that have a mapping as their value, in the order of the verbs. -/
def orderedEndpointsOf (g : Graph) (r : Scalar × Value) : List Endpoint :=
  (Operation.verbs.filter fun verb => g.isMapping ((g.fields r.2).field verb)).map
    fun verb => ⟨r.1, r.2, .text verb, (g.fields r.2).field verb⟩

/-- The verbs under the routes of a document, by route and then in the order of the verbs. -/
def orderedEndpoints (g : Graph) (paths : Value) : List Endpoint :=
  (g.fields paths).flatMap (orderedEndpointsOf g)

theorem mem_orderedEndpointsOf_iff {r : Scalar × Value} {e : Endpoint} :
    e ∈ orderedEndpointsOf g r ↔ (e.route, e.item) = r ∧ ∃ verb ∈ Operation.verbs,
      e.verb = .text verb ∧ e.operation = (g.fields e.item).field verb ∧
        g.isMapping e.operation = true := by
  constructor
  · intro member
    obtain ⟨verb, kept, rfl⟩ := List.mem_map.mp member
    obtain ⟨known, mapping⟩ := List.mem_filter.mp kept
    exact ⟨rfl, verb, known, rfl, rfl, mapping⟩
  · obtain ⟨route, item, spelled, operation⟩ := e
    rintro ⟨rfl, verb, known, rfl, located, mapping⟩
    simp only at located
    subst located
    exact List.mem_map.mpr ⟨verb, List.mem_filter.mpr ⟨known, mapping⟩, rfl⟩

theorem endpointsOf_of_ordered {r : Scalar × Value} {e : Endpoint}
    (member : e ∈ orderedEndpointsOf g r) : e ∈ endpointsOf g r := by
  obtain ⟨under, verb, known, spelled, located, mapping⟩ := mem_orderedEndpointsOf_iff.mp member
  refine mem_endpointsOf_iff.mpr ⟨under, ?_, spelled ▸ List.mem_map_of_mem known, mapping⟩
  rw [spelled, located]
  rcases Graph.exists_index_field (g.fields e.item) verb with null | ⟨index, here⟩
  · rw [located, null] at mapping
    cases mapping
  · exact List.mem_of_getElem? here

/-- Under a route that has each verb once the same operations stand in both orders. -/
theorem orderedEndpointsOf_perm {r : Scalar × Value}
    (distinct : (Entries.keys (g.fields r.2)).Nodup) :
    (orderedEndpointsOf g r).Perm (endpointsOf g r) := by
  have verbs : Operation.verbs.Nodup := by decide
  have nodup : (orderedEndpointsOf g r).Nodup :=
    (verbs.filter _).map fun _ _ same => Scalar.text.inj (Endpoint.mk.inj same).2.2.1
  have nodup' : (endpointsOf g r).Nodup := by
    refine (List.Nodup.filter _ (List.Nodup.of_map _ distinct)).map fun v w same => ?_
    obtain ⟨-, -, verb, operation⟩ := Endpoint.mk.inj same
    exact Prod.ext verb operation
  refine (List.perm_ext_iff_of_nodup nodup nodup').mpr fun e =>
    ⟨endpointsOf_of_ordered, fun member => ?_⟩
  obtain ⟨rfl, inside, known, mapping⟩ := mem_endpointsOf_iff.mp member
  obtain ⟨verb, listed, spelled⟩ := List.mem_map.mp known
  refine mem_orderedEndpointsOf_iff.mpr ⟨rfl, verb, listed, spelled.symm, ?_, mapping⟩
  rw [Entries.field, Entries.lookup?_text_of_mem distinct (spelled ▸ inside), Option.getD_some]

theorem orderedEndpoints_perm
    (distinct : ∀ r ∈ g.fields paths, (Entries.keys (g.fields r.2)).Nodup) :
    (orderedEndpoints g paths).Perm (endpoints g paths) :=
  List.Perm.flatMap_left _ fun r member => orderedEndpointsOf_perm (distinct r member)

/-! ### What is noted -/

variable {components : Value} {e : Endpoint} {o : Operation}

/-- An operation that compiles has a route, and responses that are a mapping, if there are any, of codes
with a text. -/
theorem exists_route_of_compiled (compiled : Operation.CompiledFrom g (e.slot g components) o) :
    ∃ route responses, e.route = .text route ∧
      g.optionalEntries ((g.fields e.operation).field "responses") = .ok responses ∧
      ∀ r ∈ responses, r.1.hasText = true := by
  obtain ⟨payload, succeeds, -⟩ := compiled.model
  obtain ⟨route, responses, called, listed, texts⟩ := Operation.of_success succeeds
  exact ⟨route, responses, Value.scalar.inj (Value.asRoute_eq_ok called), listed, texts⟩

theorem place_of_compiled (compiled : Operation.CompiledFrom g (e.slot g components) o) :
    ∃ route, e.route = .text route ∧ e.place = ["paths", route, o.verb] := by
  obtain ⟨route, -, routed, -⟩ := exists_route_of_compiled compiled
  exact ⟨route, routed, by rw [Endpoint.place, routed, compiled.verb]; rfl⟩

theorem lintOperation_of_compiled (compiled : Operation.CompiledFrom g (e.slot g components) o)
    {verb : String} (known : verb ∈ Operation.verbs) (spelled : e.verb = .text verb)
    (mapping : g.isMapping e.operation = true) :
    Report.lintOperation g e.route verb e.operation =
      .ok ((Report.notes g e.place e.operation).map Report.issueOf) := by
  obtain ⟨route, responses, routed, listed, texts⟩ := exists_route_of_compiled compiled
  rw [Endpoint.place, routed, spelled]
  exact Report.lintOperation_eq known mapping listed texts

/-- Of a route whose operations compile, what is to be noted is noted verb by verb. -/
theorem lintRoute_of_compiled {r : Scalar × Value}
    (each : ∀ e ∈ endpointsOf g r, ∃ o, Operation.CompiledFrom g (e.slot g components) o) :
    Report.lintRoute g Operation.verbs r.1 r.2 = .ok ((orderedEndpointsOf g r).flatMap fun e =>
      (Report.notes g e.place e.operation).map Report.issueOf) := by
  unfold Report.lintRoute
  cases entries : g.entries? r.2 with
  | none =>
    rw [orderedEndpointsOf, Graph.fields_of_other entries]
    rfl
  | some es =>
    have fields := Graph.fields_of_entries? entries
    have linted : ∀ verb ∈ Operation.verbs, Report.lintOperation g r.1 verb (es.field verb) =
        .ok (Report.issuesAt g ["paths", r.1.display, verb] (es.field verb)) := by
      intro verb known
      by_cases mapping : g.isMapping (es.field verb) = true
      · have stands : (⟨r.1, r.2, .text verb, es.field verb⟩ : Endpoint) ∈ endpointsOf g r :=
          endpointsOf_of_ordered (mem_orderedEndpointsOf_iff.mpr
            ⟨rfl, verb, known, rfl, by rw [fields], mapping⟩)
        obtain ⟨o, compiled⟩ := each _ stands
        rw [Report.issuesAt, if_pos mapping]
        exact lintOperation_of_compiled compiled known rfl mapping
      · rw [Report.issuesAt, if_neg mapping]
        rw [Bool.not_eq_true, ← Graph.entries?_eq_none_iff] at mapping
        rw [Report.lintOperation, mapping]
    simp only [Except.mapM_eq_ok_map linted, Except.ok_bind]
    refine congrArg Except.ok ?_
    rw [orderedEndpointsOf, fields, List.flatMap_map, ← List.flatMap_def,
      ← flatMap_filter_of_nil (p := fun verb => g.isMapping (es.field verb))]
    · exact List.flatMap_congr fun verb kept => if_pos (List.mem_filter.mp kept).2
    · intro verb _ other
      rw [Report.issuesAt, other]
      rfl

theorem lint_of_compiled (mapping : g.isMapping document = true) {es : Entries}
    (routes : g.optionalEntries ((g.fields document).field "paths") = .ok es)
    (each : ∀ e ∈ endpoints g ((g.fields document).field "paths"),
      ∃ o, Operation.CompiledFrom g (e.slot g components) o) :
    Report.lint g Operation.verbs document =
      .ok ((orderedEndpoints g ((g.fields document).field "paths")).flatMap fun e =>
        (Report.notes g e.place e.operation).map Report.issueOf) := by
  have linted : ∀ r ∈ es, Report.lintRoute g Operation.verbs r.1 r.2 =
      .ok ((orderedEndpointsOf g r).flatMap fun e =>
        (Report.notes g e.place e.operation).map Report.issueOf) := by
    intro r stated
    refine lintRoute_of_compiled fun e member => each e (List.mem_flatMap.mpr ⟨r, ?_, member⟩)
    rwa [Graph.fields_of_optionalEntries routes]
  rw [Report.lint, Graph.entries_of_isMapping mapping, Except.ok_bind, routes, Except.ok_bind,
    Except.mapM_eq_ok_map linted, Except.ok_bind, orderedEndpoints,
    Graph.fields_of_optionalEntries routes, List.flatMap_assoc, List.flatMap_def]
  rfl

/-- Without a response for success an operation is compiled with an unknown response. -/
theorem responseType_of_compiled (compiled : Operation.CompiledFrom g (e.slot g components) o)
    (none : Report.declaresSuccess g e.operation = false) :
    o.responseType = Contribution.unknownType := by
  obtain ⟨es, id, entries, -, alone, -⟩ := Operation.compile_eq.mp (Prod.ext compiled.compiled rfl)
  obtain ⟨-, parts, made, signs⟩ := Operation.exists_signed_parts alone
  have empty : Operation.successes (Operation.place parts.route (e.slot g components))
      parts.responses = [] := by
    have fields : g.fields e.operation = es := Graph.fields_of_entries entries
    rw [Report.declaresSuccess, fields, Graph.fields_of_optionalEntries made.responses] at none
    rw [Operation.successes, List.map_eq_nil_iff, List.filter_eq_nil_iff]
    exact List.any_eq_false.mp none
  have nothing := Operation.ofItems_of_successPayload made.success
  rw [empty] at nothing
  have unknown : Operation.responseText parts.success = Contribution.unknownType := by
    rw [← Except.ok.inj nothing]
    rfl
  rw [signs.responseType, made.model, Operation.responseModel?, unknown]
  rfl

/-- Linting notes what is compiled. Where an interface is compiled from a document, the warnings of a
report on it are those for its operations and for nothing else, by route and then in the order of the
verbs. For each there is a note if it has neither a summary nor a description, whose path is read back
to its route and verb, and then one if it has no response for success, whose path is read back to its
responses. An operation with the second note is compiled with an unknown response. -/
theorem lint_notes_what_is_compiled {api : Api} {models : List Model} (v : Validation)
    (distinct : ∀ r ∈ g.fields ((g.fields document).field "paths"),
      (Entries.keys (g.fields r.2)).Nodup)
    (success : (compileApi g document).result = .ok (api, models)) :
    ∃ warnings operations operations',
      (validate g document v).result = .ok ⟨v.issues, warnings⟩ ∧
      api = apiOf api.name operations ∧ models = operations.filterMap (·.responseModel) ∧
      List.Forall₂ (fun e o => Operation.CompiledFrom g
          (e.slot g ((g.fields document).field "components")) o)
        (endpoints g ((g.fields document).field "paths")) operations ∧
      operations'.Perm operations ∧
      List.Forall₂ (fun e o => Operation.CompiledFrom g
          (e.slot g ((g.fields document).field "components")) o ∧
          (∃ route, e.route = .text route ∧ e.place = ["paths", route, o.verb]) ∧
          (Report.declaresSuccess g e.operation = false →
            o.responseType = Contribution.unknownType))
        (orderedEndpoints g ((g.fields document).field "paths")) operations' ∧
      warnings.map (fun i => (i.message, readFragment? i.path)) =
        (orderedEndpoints g ((g.fields document).field "paths")).flatMap fun e =>
          (Report.notes g e.place e.operation).map fun note => (note.1, some note.2) := by
  obtain ⟨name, operations, made, whole⟩ := compileApi_eq_ok_iff.mp success
  obtain ⟨rfl, rfl⟩ := Prod.mk.inj whole
  obtain ⟨es, routes⟩ := made.routes
  have each := made.each
  rw [slotsOf_eq, List.forall₂_map_left_iff] at each
  obtain ⟨operations', ordered, perm⟩ :=
    List.perm_comp_forall₂ (orderedEndpoints_perm distinct) each
  have linted := lint_of_compiled made.mapping routes fun e member =>
    let ⟨o, _, compiled⟩ := exists_right_of_forall₂ each member
    ⟨o, compiled⟩
  refine ⟨_, operations, operations', by rw [validate, linted], rfl, rfl, each, perm,
    ordered.imp fun e o compiled =>
      ⟨compiled, place_of_compiled compiled, responseType_of_compiled compiled⟩, ?_⟩
  simp only [List.map_flatMap, List.map_map, Function.comp_def, Report.readFragment?_issueOf]
  rfl

/-- A route where `post` stands before `get`, without a summary; `get` has no response for success. -/
def mixedVerbs : Graph :=
  ⟨#[.mapping [(.text "paths", .node 1)],
     .mapping [(.text "/pets/~all", .node 2)],
     .mapping [(.text "post", .node 3), (.text "get", .node 4)],
     .mapping [(.text "operationId", .text "addPet"), (.text "responses", .node 5)],
     .mapping [(.text "operationId", .text "listPets"), (.text "summary", .text "All pets"),
       (.text "responses", .node 6)],
     .mapping [(.text "201", .node 7)],
     .mapping [(.text "404", .node 7)],
     .mapping [(.text "description", .text "A pet")]]⟩

theorem mixed_verbs_are_noted_in_order :
    ∃ api models warnings,
      (compileApi mixedVerbs (.node 0)).result = .ok (api, models) ∧
      (validate mixedVerbs (.node 0) {}).result = .ok ⟨[], warnings⟩ ∧
      warnings.map (fun i => (i.message, readFragment? i.path)) =
        [(Report.missingSuccess, some ["paths", "/pets/~all", "get", "responses"]),
          (Report.missingSummary, some ["paths", "/pets/~all", "post"])] := by
  obtain ⟨⟨api, models⟩, success⟩ :
      ∃ result, (compileApi mixedVerbs (.node 0)).result = .ok result :=
    Except.exists_ok (by decide +kernel)
  obtain ⟨warnings, -, -, linted, -, -, -, -, -, noted⟩ :=
    lint_notes_what_is_compiled {} (by decide +kernel) success
  refine ⟨api, models, warnings, success, linted, noted.trans ?_⟩
  decide +kernel

end Client

end TypedClient
