import TypedClient.Proofs.Client.Operations
import TypedClient.Proofs.Report.Lint

/-!
# Clients with and without a report

A validator adds a report to a client and changes nothing else. Its findings stop nothing, nor does
its breakdown. Where the library's own linting would stop, no client could be generated anyway, unless
the discriminators write into the routes: linting reads the routes as they are before that. In a
document without shared nodes they do not; a transformer can share nodes.
-/
namespace TypedClient

namespace Client

variable {g h : Graph} {document : Value}

/-- In a document without shared nodes no node is both below the routes and among the components. -/
theorem apart_of_unshared (unshared : g.Unshared document) {id : NodeId}
    (inside : g.Contains ((g.fields document).field "paths") (.node id)) :
    ¬g.Contains ((g.fields document).field "components") (.node id) := by
  cases entries : g.entries? document with
  | none =>
    rw [Graph.fields_of_other entries] at inside
    exact absurd inside (Graph.not_contains_scalar _ _)
  | some es =>
    rw [Graph.fields_of_entries? entries] at inside ⊢
    exact unshared.fields_apart entries (by decide) inside

theorem routesApart_of_unshared (unshared : g.Unshared document) : RoutesApart g document :=
  .inr fun _ located => apart_of_unshared unshared (located ▸ .refl g _)

/-- What is a mapping or empty once the discriminators are carried out was so before: they make nothing
empty and no mapping. -/
theorem mapping_before (propagated : (Discriminator.propagate g document).result = .ok h) {v : Value}
    {es : Entries} (listed : h.optionalEntries v = .ok es) :
    g.truthy v = false ∨ g.isMapping v = true := by
  rw [Graph.optionalEntries_eq] at listed
  split at listed
  · next stated =>
    rcases Bool.or_eq_true_iff.mp stated with empty | mapping
    · refine .inl (Bool.eq_false_iff.mpr fun truthy => ?_)
      rw [Discriminator.truthy_of_propagate propagated v truthy] at empty
      cases empty
    · exact .inr (((Discriminator.enumOnly_of_propagate propagated).isMapping v).symm.trans mapping)
  · cases listed

/-- Responses that an operation compiles with can be linted. -/
theorem exists_codes (propagated : (Discriminator.propagate g document).result = .ok h)
    {responses : Value} {es : Entries} (listed : h.optionalEntries responses = .ok es)
    (texts : ∀ e ∈ es, e.1.hasText = true) :
    ∃ codes, g.optionalElements responses = .ok codes ∧
      ∀ code ∈ codes, ∃ t, g.textOf code = .ok t := by
  have stated : g.optionalEntries responses = .ok (g.fields responses) := by
    rw [Graph.optionalEntries_eq, if_pos]
    simpa using mapping_before propagated listed
  refine ⟨_, Graph.optionalElements_of_optionalEntries stated, fun code member => ?_⟩
  obtain ⟨e, here, rfl⟩ := List.mem_map.mp member
  have key := (Discriminator.restricts_of_propagate propagated).keys responses
    (List.mem_map_of_mem here)
  rw [Graph.fields_of_optionalEntries listed] at key
  obtain ⟨e', there, same⟩ := List.mem_map.mp key
  exact ⟨_, if_pos (same ▸ texts e' there)⟩

/-- An operation that compiles once the discriminators are carried out can be linted before. -/
theorem exists_lintOperation (propagated : (Discriminator.propagate g document).result = .ok h)
    {e : Endpoint} {components : Value} {o : Operation}
    (compiled : Operation.CompiledFrom h (e.slot h components) o) (verb : String) :
    ∃ issues, Report.lintOperation g e.route verb e.operation = .ok issues := by
  have restricts := Discriminator.restricts_of_propagate propagated
  obtain ⟨payload, succeeds, -⟩ := compiled.model
  obtain ⟨route, responses, called, listed, texts⟩ := Operation.of_success succeeds
  have listed : h.optionalEntries ((g.fields e.operation).field "responses") = .ok responses := by
    rwa [← restricts.field e.operation "responses" (by decide)]
  obtain ⟨codes, walked, texts⟩ := exists_codes propagated listed texts
  exact Report.lintOperation_of_responses called walked texts

/-- A document that a client is made of can be linted if the discriminators do not write into its
routes. -/
theorem exists_lint (apart : RoutesApart g document)
    (propagated : (Discriminator.propagate g document).result = .ok h) {name : String}
    {models : List Model} {operations : List Operation}
    (made : MadeOf h document name models operations) :
    ∃ warnings, Report.lint g Operation.verbs document = .ok warnings := by
  have only := Discriminator.enumOnly_of_propagate propagated
  have restricts := Discriminator.restricts_of_propagate propagated
  have routes := restricts.field document "paths" (by decide)
  refine Report.lint_eq_ok_iff.mpr ⟨?_, ?_, fun e member =>
    Report.lintRoute_of_operations fun verb listed mapping => ?_⟩
  · obtain ⟨fields, entries, -⟩ := Except.bind_eq_ok made.models
    rw [← only.isMapping, Graph.isMapping_of_entries entries]
  · obtain ⟨es, listed⟩ := made.routes
    rw [routes] at listed
    exact mapping_before propagated listed
  · have stands : (Scalar.text verb, (g.fields e.2).field verb) ∈ g.fields e.2 := by
      rcases Graph.exists_index_field (g.fields e.2) verb with null | ⟨index, here⟩
      · rw [null] at mapping
        cases mapping
      · exact List.mem_of_getElem? here
    have endpoint : (⟨e.1, e.2, .text verb, (g.fields e.2).field verb⟩ : Endpoint) ∈
        endpoints g ((g.fields document).field "paths") :=
      mem_endpoints_iff.mpr ⟨member, stands, List.mem_map_of_mem listed, mapping⟩
    have each := made.each
    rw [slotsOf_eq, List.forall₂_map_left_iff, routes, endpoints_eq_of_apart propagated apart] at each
    obtain ⟨o, -, compiled⟩ := exists_right_of_forall₂ each endpoint
    exact exists_lintOperation propagated compiled verb

/-- Validation is advice. Whatever the validator finds and however it breaks down, a client that is
generated with a report is generated without one, and the two differ in the report alone, which has what
the validator found and what the linting noted. The other way round, a client that is generated without a
report is generated with one if the document shares no nodes, after the transformer if there is one, or
does so where no discriminator can write into its routes. -/
theorem validation_changes_the_report_alone (g : Graph) (document : Value)
    (transformer : Option Transformer) (validator : Validator) :
    ((∃ c, (generate g document transformer (some validator)).result = .ok c) →
      ∃ c', (generate g document transformer none).result = .ok c') ∧
    ((∀ g' document', transformed g document transformer = .ok (g', document') →
        g'.Unshared document' ∨ RoutesApart g' document') →
      (∃ c', (generate g document transformer none).result = .ok c') →
      ∃ c, (generate g document transformer (some validator)).result = .ok c) ∧
    ∀ c c', (generate g document transformer (some validator)).result = .ok c →
      (generate g document transformer none).result = .ok c' →
      c.base = c'.base ∧ c.api = c'.api ∧ c.models = c'.models ∧ c'.report = none ∧
      ∃ g' document' warnings, transformed g document transformer = .ok (g', document') ∧
        Report.lint g' Operation.verbs document' = .ok warnings ∧
        c.report = some ⟨(validator g' document').issues, warnings⟩ := by
  refine ⟨fun ⟨c, success⟩ => ?_, fun apart ⟨c', success'⟩ => ?_, fun c c' success success' => ?_⟩
  · obtain ⟨g', document', report, h, name, models, operations, start, checked, -, propagated, made,
      -⟩ := generate_eq_ok_iff.mp success
    exact ⟨assemble name models operations none, generate_eq_ok_iff.mpr ⟨g', document', none, h, name,
      models, operations, start, checked, rfl, propagated, made, rfl⟩⟩
  · obtain ⟨g', document', report, h, name, models, operations, start, checked, -, propagated, made,
      -⟩ := generate_eq_ok_iff.mp success'
    have routes : RoutesApart g' document' := (apart g' document' start).elim routesApart_of_unshared id
    obtain ⟨warnings, linted⟩ := exists_lint routes propagated made
    have validated := (validateIf_some_eq_ok_iff (v := validator)).mpr ⟨warnings, linted, rfl⟩
    exact ⟨assemble name models operations (some ⟨(validator g' document').issues, warnings⟩),
      generate_eq_ok_iff.mpr ⟨g', document', _, h, name, models, operations, start, checked,
        validated, propagated, made, rfl⟩⟩
  · obtain ⟨g', document', report, h, name, models, operations, start, -, validated, propagated, made,
      rfl⟩ := generate_eq_ok_iff.mp success
    obtain ⟨_, _, _, _, _, _, _, start', -, none, propagated', made', rfl⟩ :=
      generate_eq_ok_iff.mp success'
    cases start.symm.trans start'
    cases none
    cases propagated.symm.trans propagated'
    obtain ⟨rfl, rfl, rfl⟩ := made.unique made'
    obtain ⟨warnings, linted, rfl⟩ := validateIf_some_eq_ok_iff.mp validated
    exact ⟨rfl, rfl, rfl, rfl, g', document', warnings, start, linted, rfl⟩

/-- A document with an operation that has no summary and no response for success. -/
def bareListing : Tree :=
  .mapping [
    (.text "openapi", .scalar (.text "3.0.3")),
    (.text "paths", .mapping [
      (.text "/pets", .mapping [
        (.text "get", .mapping [
          (.text "operationId", .scalar (.text "listPets")),
          (.text "responses", .mapping [(.int 404, .mapping [])])])])])]

/-- A transformer that adds an operation with the responses of another one. -/
def addPet : Transformer := fun g document =>
  let item := (g.fields ((g.fields document).field "paths")).field "/pets"
  let responses := (g.fields ((g.fields item).field "get")).field "responses"
  let (g, post) :=
    g.add (.mapping [(.text "operationId", .text "addPet"), (.text "responses", responses)])
  match item with
  | .node id => .ok (g.set id (.mapping (Entries.put (.text "post") post (g.fields item))), document)
  | .scalar _ => .ok (g, document)

/-- A validator that finds something and then breaks down. -/
def brokenValidator : Validator := fun _ _ => ⟨[("bad", ["paths"])], some "out of memory"⟩

theorem bare_listing_is_generated_with_a_report :
    ∃ c c', (generate (Graph.ofTree bareListing).1 (Graph.ofTree bareListing).2 (some addPet)
        (some brokenValidator)).result = .ok c ∧
      (generate (Graph.ofTree bareListing).1 (Graph.ofTree bareListing).2 (some addPet) none).result =
        .ok c' ∧
      c.base = c'.base ∧ c.api = c'.api ∧ c.models = c'.models ∧ c'.report = none ∧
      c.report = some ⟨[⟨"bad", "#/paths"⟩, ⟨"Validator failed: out of memory", "#"⟩],
        [⟨Report.missingSummary, "#/paths/~1pets/get"⟩,
          ⟨Report.missingSuccess, "#/paths/~1pets/get/responses"⟩,
          ⟨Report.missingSummary, "#/paths/~1pets/post"⟩,
          ⟨Report.missingSuccess, "#/paths/~1pets/post/responses"⟩]⟩ := by
  have apart : ∀ g' document', transformed (Graph.ofTree bareListing).1
      (Graph.ofTree bareListing).2 (some addPet) = .ok (g', document') →
        g'.Unshared document' ∨ RoutesApart g' document' := by
    rintro g' document' start
    cases start
    exact .inr (.inl (by decide +kernel))
  obtain ⟨-, validated, alike⟩ := validation_changes_the_report_alone (Graph.ofTree bareListing).1
    (Graph.ofTree bareListing).2 (some addPet) brokenValidator
  obtain ⟨c', success'⟩ : ∃ c', (generate (Graph.ofTree bareListing).1
      (Graph.ofTree bareListing).2 (some addPet) none).result = .ok c' :=
    Except.exists_ok (by decide +kernel)
  obtain ⟨c, success⟩ := validated apart ⟨c', success'⟩
  obtain ⟨base, api, models, none, g', document', warnings, start, linted, report⟩ :=
    alike c c' success success'
  have noted : ((transformed (Graph.ofTree bareListing).1 (Graph.ofTree bareListing).2
      (some addPet)).bind fun p => Report.lint p.1 Operation.verbs p.2) =
        .ok [⟨Report.missingSummary, "#/paths/~1pets/get"⟩,
          ⟨Report.missingSuccess, "#/paths/~1pets/get/responses"⟩,
          ⟨Report.missingSummary, "#/paths/~1pets/post"⟩,
          ⟨Report.missingSuccess, "#/paths/~1pets/post/responses"⟩] := by
    decide +kernel
  rw [start] at noted
  cases noted.symm.trans linted
  have issues : (brokenValidator g' document').issues =
      [⟨"bad", "#/paths"⟩, ⟨"Validator failed: out of memory", "#"⟩] := by
    unfold brokenValidator
    decide +kernel
  exact ⟨c, c', success, success', base, api, models, none, by rw [report, issues]⟩

/-- A route `enum` whose operation has responses that cannot be walked over. -/
def oddRoute : Tree :=
  .mapping [
    (.text "openapi", .scalar (.text "3.0.3")),
    (.text "paths", .mapping [
      (.text "enum", .mapping [(.text "get", .mapping [(.text "responses", .scalar (.int 5))])])])]

/-- A schema that maps `pet` to the schema `Pet`. -/
def petDiscriminator : Tree :=
  .mapping [(.text "discriminator", .mapping [
    (.text "propertyName", .scalar (.text "kind")),
    (.text "mapping", .mapping [(.text "pet", .scalar (.text "#/components/schemas/Pet"))])])]

/-- A transformer that adds two schemas, one of which has the mapping of the routes as the property that
the other one restricts. -/
def shareRoutes : Transformer := fun g document =>
  let fields := g.fields document
  let (g, base) := g.addTree petDiscriminator
  let (g, properties) := g.add (.mapping [(.text "kind", fields.field "paths")])
  let (g, pet) := g.add (.mapping [(.text "properties", properties)])
  let (g, schemas) := g.add (.mapping [(.text "Base", base), (.text "Pet", pet)])
  let (g, components) := g.add (.mapping [(.text "schemas", schemas)])
  .ok (g.add (.mapping (Entries.put (.text "components") components fields)))

/-- A transformer can make it otherwise in a document without shared nodes: linting reads the routes
before the discriminators have written into them. -/
theorem masked_routes_cannot_be_validated :
    (Graph.ofTree oddRoute).1.Unshared (Graph.ofTree oddRoute).2 ∧
      (generate (Graph.ofTree oddRoute).1 (Graph.ofTree oddRoute).2 (some shareRoutes)
        (some fun _ _ => {})).result = .error (.malformed .notIterable) ∧
      ∃ c, (generate (Graph.ofTree oddRoute).1 (Graph.ofTree oddRoute).2 (some shareRoutes)
        none).result = .ok c :=
  ⟨Graph.unshared_ofTree oddRoute, by decide +kernel, Except.exists_ok (by decide +kernel)⟩

end Client

end TypedClient
