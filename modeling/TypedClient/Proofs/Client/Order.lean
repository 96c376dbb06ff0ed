import Mathlib.Data.List.Perm.Basic
import TypedClient.Proofs.Client.Operations
import TypedClient.Proofs.Report.Lint

/-!
# Clients and the order of operations

Two documents of one graph that differ in the order of their routes and of the keys under each route
have the same operations, in another order. Everything else that a client is made of does not depend
on that order, so one of them has a client exactly if the other one has.
-/
namespace TypedClient

namespace Entries

theorem field_cons (key name : String) (v : Value) (es : Entries) :
    field ((.text key, v) :: es) name = if key = name then v else es.field name := by
  have same : (Scalar.text key).same (.text name) = decide (key = name) := by
    rw [Bool.eq_iff_iff, Scalar.same_text_iff, decide_eq_true_eq, Scalar.text.injEq]
  unfold field lookup?
  rw [List.find?_cons, same]
  by_cases here : key = name <;> simp [here]

theorem field_perm {es' es : Entries} (perm : es'.Perm es) (distinct : (keys es).Nodup)
    (name : String) : es'.field name = es.field name := by
  have distinct' : (keys es').Nodup := (perm.map _).nodup_iff.mpr distinct
  have same : lookup? es' (.text name) = lookup? es (.text name) := Option.ext fun v =>
    ⟨fun found => lookup?_text_of_mem distinct (perm.mem_iff.mp (mem_of_lookup?_text found)),
      fun found => lookup?_text_of_mem distinct' (perm.mem_iff.mpr (mem_of_lookup?_text found))⟩
  rw [field, field, same]

end Entries

theorem perm_flatMap_of_forall₂ {α β γ : Type} {f : α → List γ} {h : β → List γ} {l' : List α}
    {l : List β} (each : List.Forall₂ (fun x y => (f x).Perm (h y)) l' l) :
    (l'.flatMap f).Perm (l.flatMap h) := by
  induction each with
  | nil => exact .refl _
  | cons here _ ih => exact here.append ih

namespace Model

theorem mem_neededImports_perm {names' names : List String} (perm : names'.Perm names)
    (exclude : Option String) (n : String) :
    n ∈ neededImports exclude names' ↔ n ∈ neededImports exclude names := by
  rw [neededImports, neededImports, Text.mem_distinct, Text.mem_distinct]
  exact (perm.filter _).mem_iff

end Model

namespace Client

variable {g h : Graph} {document' document : Value}

/-- What stands under a route, with its keys in any order. -/
def ItemPermuted (g : Graph) (item' item : Value) : Prop :=
  item' = item ∨
  g.isMapping item' = true ∧ g.isMapping item = true ∧ (Entries.keys (g.fields item)).Nodup ∧
    (g.fields item').Perm (g.fields item)

/-- The routes in any order, each with its keys in any order. -/
def RoutesPermuted (g : Graph) (paths' paths : Value) : Prop :=
  paths' = paths ∨
  g.isMapping paths' = true ∧ g.isMapping paths = true ∧
    ∃ routes, List.Forall₂ (fun r' r => r'.1 = r.1 ∧ ItemPermuted g r'.2 r.2) (g.fields paths') routes ∧
      routes.Perm (g.fields paths)

/-- Two documents that have the same in all fields but for the order of the routes and of the keys
under each route. -/
structure Permuted (g : Graph) (document' document : Value) : Prop where
  isMapping : g.isMapping document' = g.isMapping document
  rest : ∀ name, name ≠ "paths" →
    (g.fields document').field name = (g.fields document).field name
  routes : RoutesPermuted g ((g.fields document').field "paths") ((g.fields document).field "paths")

namespace ItemPermuted

variable {item' item : Value}

theorem symm (permuted : ItemPermuted g item' item) : ItemPermuted g item item' := by
  rcases permuted with same | ⟨mapping', mapping, distinct, perm⟩
  · exact .inl same.symm
  · exact .inr ⟨mapping, mapping', (perm.map _).nodup_iff.mpr distinct, perm.symm⟩

theorem perm (permuted : ItemPermuted g item' item) : (g.fields item').Perm (g.fields item) := by
  rcases permuted with rfl | ⟨-, -, -, perm⟩
  · exact .refl _
  · exact perm

theorem field (permuted : ItemPermuted g item' item) (name : String) :
    (g.fields item').field name = (g.fields item).field name := by
  rcases permuted with rfl | ⟨-, -, distinct, perm⟩
  · rfl
  · exact Entries.field_perm perm distinct name

end ItemPermuted

namespace Permuted

theorem symm (permuted : Permuted g document' document) : Permuted g document document' where
  isMapping := permuted.isMapping.symm
  rest name other := (permuted.rest name other).symm
  routes := by
    rcases permuted.routes with same | ⟨mapping', mapping, routes, each, perm⟩
    · exact .inl same.symm
    · have back : List.Forall₂ (fun r r' => r.1 = r'.1 ∧ ItemPermuted g r.2 r'.2) routes
          (g.fields ((g.fields document').field "paths")) :=
        each.flip.imp fun r r' here => ⟨here.1.symm, here.2.symm⟩
      obtain ⟨routes', each', perm'⟩ := List.perm_comp_forall₂ perm.symm back
      exact .inr ⟨mapping, mapping', routes', each', perm'⟩

variable (permuted : Permuted g document' document)

include permuted

theorem propagate_eq : Discriminator.propagate g document' = Discriminator.propagate g document := by
  have same : Discriminator.schemas g document' = Discriminator.schemas g document := by
    unfold Discriminator.schemas
    rw [Graph.entries_eq, Graph.entries_eq, permuted.isMapping]
    split
    · rw [Except.ok_bind, Except.ok_bind, permuted.rest "components" (by decide)]
    · rfl
  rw [Discriminator.propagate, Discriminator.propagate, same]

theorem versionCheck_iff :
    (∃ version, Version.check g document' none = .ok version) ↔
      ∃ version, Version.check g document none = .ok version := by
  unfold Version.check
  rw [Graph.entries_eq, Graph.entries_eq, permuted.isMapping]
  split
  · rw [Except.ok_bind, Except.ok_bind]
    simp only [permuted.rest "openapi" (by decide), Version.found, permuted.rest "swagger" (by decide)]
  · rfl

section Discriminated

variable (propagated : (Discriminator.propagate g document).result = .ok h)

include propagated

/-- After the discriminators the documents still have the same in all other fields. -/
theorem field_eq {name : String} (other : name ≠ "paths") (unwritten : name ≠ "enum") :
    (h.fields document').field name = (h.fields document).field name := by
  have restricts := Discriminator.restricts_of_propagate propagated
  rw [restricts.field _ name unwritten, restricts.field _ name unwritten, permuted.rest name other]

theorem propagated_other : (Discriminator.propagate g document').result = .ok h := by
  rw [permuted.propagate_eq, propagated]

theorem isMapping_eq : h.isMapping document' = h.isMapping document := by
  have only := Discriminator.enumOnly_of_propagate propagated
  rw [only.isMapping, only.isMapping, permuted.isMapping]

theorem componentModels_eq : componentModels h document' = componentModels h document := by
  unfold componentModels
  rw [Graph.entries_eq, Graph.entries_eq, permuted.isMapping_eq propagated]
  split
  · rw [Except.ok_bind, Except.ok_bind, permuted.field_eq propagated (by decide) (by decide)]
  · rfl

theorem title_eq : title h (h.fields document') = title h (h.fields document) := by
  unfold title
  rw [permuted.field_eq propagated (by decide) (by decide)]

theorem routes_of (listed : ∃ es, h.optionalEntries ((h.fields document).field "paths") = .ok es) :
    ∃ es, h.optionalEntries ((h.fields document').field "paths") = .ok es := by
  have restricts := Discriminator.restricts_of_propagate propagated
  have only := Discriminator.enumOnly_of_propagate propagated
  rw [restricts.field _ "paths" (by decide)] at listed ⊢
  rcases permuted.routes with same | ⟨mapping', -, -⟩
  · rwa [same]
  · unfold Graph.optionalEntries
    rw [Graph.entries_eq, only.isMapping, mapping']
    split
    · exact ⟨_, rfl⟩
    · exact ⟨_, rfl⟩

/-- The slots of the documents are the same but for their order. -/
theorem slotsOf_perm (apart' : RoutesApart g document') (apart : RoutesApart g document) :
    (slotsOf h document').Perm (slotsOf h document) := by
  have restricts := Discriminator.restricts_of_propagate propagated
  have propagated' := permuted.propagated_other propagated
  rw [slotsOf_eq, slotsOf_eq, permuted.field_eq propagated (by decide) (by decide),
    restricts.field document' "paths" (by decide), restricts.field document "paths" (by decide),
    endpoints_eq_of_apart propagated' apart', endpoints_eq_of_apart propagated apart]
  generalize (h.fields document).field "components" = components
  rcases permuted.routes with same | ⟨-, -, routes, each, perm⟩
  · rw [same]
  · unfold endpoints
    rw [List.map_flatMap, List.map_flatMap]
    refine .trans (perm_flatMap_of_forall₂ (each.imp fun r' r here => ?_)) (perm.flatMap_right _)
    obtain ⟨route', item'⟩ := r'
    obtain ⟨route, item⟩ := r
    obtain ⟨rfl, item_perm⟩ := here
    unfold endpointsOf
    rw [List.map_map, List.map_map]
    -- the parameters of a route are found wherever they stand under it
    have shared : Endpoint.slot h components ∘ (fun verb => ⟨route', item', verb.1, verb.2⟩) =
        Endpoint.slot h components ∘ fun verb : Scalar × Value => ⟨route', item, verb.1, verb.2⟩ := by
      funext verb
      simp only [Function.comp_apply, Endpoint.slot, restricts.field _ "parameters" (by decide),
        item_perm.field "parameters"]
    rw [shared]
    exact (item_perm.perm.filter _).map _

/-- The other document is made of the same parts, with the operations in another order. -/
theorem madeOf (apart' : RoutesApart g document') (apart : RoutesApart g document) {name : String}
    {models : List Model} {operations : List Operation}
    (made : MadeOf h document name models operations) :
    ∃ operations', MadeOf h document' name models operations' ∧ operations'.Perm operations := by
  obtain ⟨operations', each, perm⟩ :=
    List.perm_comp_forall₂ (permuted.slotsOf_perm propagated apart' apart) made.each
  exact ⟨operations', {
    title := (permuted.title_eq propagated).trans made.title
    models := (permuted.componentModels_eq propagated).trans made.models
    routes := permuted.routes_of propagated made.routes
    each := each
    distinct := (perm.map _).nodup_iff.mpr made.distinct }, perm⟩

end Discriminated

end Permuted

theorem lintRoute_eq {item' item : Value} (permuted : ItemPermuted g item' item)
    (verbs : List String) (route : Scalar) :
    Report.lintRoute g verbs route item' = Report.lintRoute g verbs route item := by
  rcases permuted with rfl | ⟨mapping', mapping, distinct, perm⟩
  · rfl
  · obtain ⟨es', entries'⟩ := Option.isSome_iff_exists.mp mapping'
    obtain ⟨es, entries⟩ := Option.isSome_iff_exists.mp mapping
    rw [Graph.fields_of_entries? entries'] at perm
    rw [Graph.fields_of_entries? entries] at perm distinct
    rw [Report.lintRoute, Report.lintRoute, entries', entries]
    simp only [Entries.field_perm perm distinct]

theorem Permuted.validated (permuted : Permuted g document' document) {validator : Option Validator}
    {report : Option Report} (success : (validateIf g document validator).result = .ok report) :
    ∃ report', (validateIf g document' validator).result = .ok report' := by
  cases validator with
  | none => exact ⟨none, rfl⟩
  | some v =>
    obtain ⟨warnings, linted, -⟩ := validateIf_some_eq_ok_iff.mp success
    obtain ⟨mapping, ⟨listed, each⟩⟩ := Report.lint_eq_ok_iff.mp ⟨warnings, linted⟩
    obtain ⟨warnings', linted'⟩ : ∃ issues, Report.lint g Operation.verbs document' = .ok issues := by
      refine Report.lint_eq_ok_iff.mpr ⟨permuted.isMapping.trans mapping, ?_, ?_⟩
      · rcases permuted.routes with same | ⟨mapping', -, -⟩
        · rwa [same]
        · exact .inr mapping'
      · rcases permuted.routes with same | ⟨-, -, routes, permutedEach, perm⟩
        · rwa [same]
        · intro r' member
          obtain ⟨r, there, key, item⟩ := exists_right_of_forall₂ permutedEach member
          rw [key, lintRoute_eq item]
          exact each r (perm.mem_iff.mp there)
    exact ⟨_, validateIf_some_eq_ok_iff.mpr ⟨warnings', linted', rfl⟩⟩

/-- If one of the documents has a client, the other one has a client that is made of the same parts,
with the operations in another order. -/
theorem Permuted.exists_client (permuted : Permuted g document' document)
    (apart' : RoutesApart g document') (apart : RoutesApart g document)
    {validator : Option Validator} {c : Client}
    (success : (generate g document none validator).result = .ok c) :
    ∃ h name models operations' operations,
      (Discriminator.propagate g document).result = .ok h ∧
      MadeOf h document' name models operations' ∧ MadeOf h document name models operations ∧
      operations'.Perm operations ∧ c = assemble name models operations c.report ∧
      (∃ c', (generate g document' none validator).result = .ok c') ∧
      ∀ c', (generate g document' none validator).result = .ok c' →
        c' = assemble name models operations' c'.report := by
  obtain ⟨_, _, report, h, name, models, operations, start, checked, validated, propagated, made,
    rfl⟩ := generate_eq_ok_iff.mp success
  cases start
  obtain ⟨operations', made', perm⟩ := permuted.madeOf propagated apart' apart made
  have propagated' := permuted.propagated_other propagated
  refine ⟨h, name, models, operations', operations, propagated, made', made, perm, rfl, ?_, ?_⟩
  · obtain ⟨report', validated'⟩ := permuted.validated validated
    exact ⟨assemble name models operations' report', generate_eq_ok_iff.mpr ⟨g, document', report', h,
      name, models, operations', rfl, permuted.versionCheck_iff.mpr checked, validated', propagated',
      made', rfl⟩⟩
  · intro c' success'
    obtain ⟨_, _, report', h', name', models', operations'', start', -, -, again, made'', rfl⟩ :=
      generate_eq_ok_iff.mp success'
    cases start'
    cases propagated'.symm.trans again
    obtain ⟨rfl, rfl, rfl⟩ := made'.unique made''
    rfl

/-- The order of the routes, and of the keys under each route, does not matter to any method. Two
documents that differ in it alone both have a client or both have none, unless a discriminator could
write into the routes of one of them. Where they have clients, these have the same models of
components, the same operations in another order, and the same names among the imports. -/
theorem same_methods_in_any_order (permuted : Permuted g document' document)
    (apart' : RoutesApart g document') (apart : RoutesApart g document)
    (validator : Option Validator) :
    ((∃ c', (generate g document' none validator).result = .ok c') ↔
      ∃ c, (generate g document none validator).result = .ok c) ∧
    ∀ c' c, (generate g document' none validator).result = .ok c' →
      (generate g document none validator).result = .ok c →
      ∃ h name models operations' operations,
        (Discriminator.propagate g document).result = .ok h ∧
        MadeOf h document' name models operations' ∧ MadeOf h document name models operations ∧
        c' = assemble name models operations' c'.report ∧
        c = assemble name models operations c.report ∧
        operations'.Perm operations ∧ ∀ n, n ∈ c'.api.imports ↔ n ∈ c.api.imports := by
  refine ⟨⟨fun ⟨c', success'⟩ => ?_, fun ⟨c, success⟩ => ?_⟩, fun c' c success' success => ?_⟩
  · obtain ⟨_, _, _, _, _, -, -, -, -, -, there, -⟩ :=
      permuted.symm.exists_client apart apart' success'
    exact there
  · obtain ⟨_, _, _, _, _, -, -, -, -, -, there, -⟩ := permuted.exists_client apart' apart success
    exact there
  · obtain ⟨h, name, models, operations', operations, propagated, made', made, perm, parts, -, parts'⟩ :=
      permuted.exists_client apart' apart success
    refine ⟨h, name, models, operations', operations, propagated, made', made, parts' c' success',
      parts, perm, fun n => ?_⟩
    rw [parts, parts' c' success']
    exact Model.mem_neededImports_perm (perm.flatMap_right _) none n

/-- One document twice, with its two routes and the keys under one of them in another order. -/
def petsInTwoOrders : Graph :=
  ⟨#[.mapping [(.text "openapi", .text "3.0.3"), (.text "paths", .node 2)],
     .mapping [(.text "openapi", .text "3.0.3"), (.text "paths", .node 3)],
     .mapping [(.text "/pets", .node 4), (.text "/owners", .node 6)],
     .mapping [(.text "/owners", .node 6), (.text "/pets", .node 5)],
     .mapping [(.text "parameters", .node 7), (.text "get", .node 8), (.text "post", .node 9)],
     .mapping [(.text "post", .node 9), (.text "parameters", .node 7), (.text "get", .node 8)],
     .mapping [(.text "get", .node 10)],
     .list [.node 11],
     .mapping [(.text "operationId", .text "findPets")],
     .mapping [(.text "operationId", .text "addPet")],
     .mapping [(.text "operationId", .text "findOwners")],
     .mapping [(.text "name", .text "limit"), (.text "in", .text "query")]]⟩

theorem permuted_petsInTwoOrders : Permuted petsInTwoOrders (.node 1) (.node 0) where
  isMapping := by decide
  rest name other := by
    have fields' : petsInTwoOrders.fields (.node 1) =
        [(.text "openapi", .text "3.0.3"), (.text "paths", .node 3)] := by decide
    have fields : petsInTwoOrders.fields (.node 0) =
        [(.text "openapi", .text "3.0.3"), (.text "paths", .node 2)] := by decide
    simp only [fields', fields, Entries.field_cons, if_neg other.symm]
  routes := .inr ⟨by decide, by decide,
    [(.text "/owners", .node 6), (.text "/pets", .node 4)],
    .cons ⟨rfl, .inl rfl⟩ (.cons ⟨rfl, .inr ⟨by decide, by decide, by decide, by decide⟩⟩ .nil),
    by decide⟩

theorem pets_in_two_orders_have_the_same_methods :
    ∃ (c' c : Client) (models : List Model) (operations' operations : List Operation),
      (generate petsInTwoOrders (.node 1) none none).result = .ok c' ∧
      (generate petsInTwoOrders (.node 0) none none).result = .ok c ∧
      operations'.map (·.id) = ["findOwners", "addPet", "findPets"] ∧
      operations.map (·.id) = ["findPets", "addPet", "findOwners"] ∧
      operations'.Perm operations ∧
      c'.models = models ++ operations'.filterMap (·.responseModel) ∧
      c.models = models ++ operations.filterMap (·.responseModel) ∧
      ∀ n, n ∈ c'.api.imports ↔ n ∈ c.api.imports := by
  have apart' : RoutesApart petsInTwoOrders (.node 1) := .inl (by decide)
  have apart : RoutesApart petsInTwoOrders (.node 0) := .inl (by decide)
  obtain ⟨both, parts⟩ := same_methods_in_any_order permuted_petsInTwoOrders apart' apart none
  obtain ⟨c, success⟩ : ∃ c, (generate petsInTwoOrders (.node 0) none none).result = .ok c :=
    Except.exists_ok (by decide +kernel)
  obtain ⟨c', success'⟩ := both.mpr ⟨c, success⟩
  obtain ⟨h, name, models, operations', operations, propagated, made', made, whole', whole, perm,
    imports⟩ := parts c' c success' success
  have unchanged : (Discriminator.propagate petsInTwoOrders (.node 0)).result =
      .ok petsInTwoOrders := by
    decide +kernel
  cases unchanged.symm.trans propagated
  exact ⟨c', c, models, operations', operations, success', success,
    ids_of_compiled made'.each (by decide +kernel), ids_of_compiled made.each (by decide +kernel),
    perm, congrArg Client.models whole', congrArg Client.models whole, imports⟩

/-- The mapping of the routes is at the same time a property that a discriminator restricts; the
second document has the same routes in a mapping of their own. -/
def aliasedOrder : Graph :=
  ⟨#[.mapping [(.text "openapi", .text "3.0.0"), (.text "components", .node 1),
       (.text "paths", .node 8)],
     .mapping [(.text "schemas", .node 2)],
     .mapping [(.text "Base", .node 3), (.text "Pet", .node 6)],
     .mapping [(.text "discriminator", .node 4)],
     .mapping [(.text "propertyName", .text "kind"), (.text "mapping", .node 5)],
     .mapping [(.text "pet", .text "#/components/schemas/Pet")],
     .mapping [(.text "properties", .node 7)],
     .mapping [(.text "kind", .node 8)],
     .mapping [(.text "enum", .node 9), (.text "/owners", .node 11)],
     .mapping [(.text "get", .node 10)],
     .mapping [(.text "operationId", .text "listPets")],
     .mapping [(.text "get", .node 12)],
     .mapping [(.text "operationId", .text "listOwners")],
     .mapping [(.text "openapi", .text "3.0.0"), (.text "components", .node 1),
       (.text "paths", .node 14)],
     .mapping [(.text "/owners", .node 11), (.text "enum", .node 9)]]⟩

/-- Where a discriminator writes into the routes of one document, the other one has a method more. -/
theorem aliased_routes_lose_a_method_in_one_order :
    Permuted aliasedOrder (.node 13) (.node 0) ∧
    ∃ c' c, (generate aliasedOrder (.node 13) none none).result = .ok c' ∧
      (generate aliasedOrder (.node 0) none none).result = .ok c ∧
      ¬∃ h name models operations' operations,
        (Discriminator.propagate aliasedOrder (.node 0)).result = .ok h ∧
        MadeOf h (.node 13) name models operations' ∧ MadeOf h (.node 0) name models operations ∧
        c' = assemble name models operations' c'.report ∧
        c = assemble name models operations c.report ∧
        operations'.Perm operations ∧ ∀ n, n ∈ c'.api.imports ↔ n ∈ c.api.imports := by
  have permuted : Permuted aliasedOrder (.node 13) (.node 0) := {
    isMapping := by decide
    rest := fun name other => by
      have fields' : aliasedOrder.fields (.node 13) = [(.text "openapi", .text "3.0.0"),
          (.text "components", .node 1), (.text "paths", .node 14)] := by decide
      have fields : aliasedOrder.fields (.node 0) = [(.text "openapi", .text "3.0.0"),
          (.text "components", .node 1), (.text "paths", .node 8)] := by decide
      simp only [fields', fields, Entries.field_cons, if_neg other.symm]
    routes := .inr ⟨by decide, by decide, aliasedOrder.fields (.node 14),
      List.forall₂_same.mpr fun r _ => ⟨rfl, .inl rfl⟩, by decide⟩ }
  have lengths : ((Discriminator.propagate aliasedOrder (.node 0)).result.toOption.map fun h =>
      ((slotsOf h (.node 13)).length, (slotsOf h (.node 0)).length)) = some (2, 1) := by
    decide +kernel
  obtain ⟨c', success'⟩ : ∃ c', (generate aliasedOrder (.node 13) none none).result = .ok c' :=
    Except.exists_ok (by decide +kernel)
  obtain ⟨c, success⟩ : ∃ c, (generate aliasedOrder (.node 0) none none).result = .ok c :=
    Except.exists_ok (by decide +kernel)
  refine ⟨permuted, c', c, success', success, ?_⟩
  rintro ⟨h, name, models, operations', operations, propagated, made', made, -, -, perm, -⟩
  rw [propagated] at lengths
  obtain ⟨two, one⟩ := Prod.mk.inj (Option.some.inj lengths)
  have same := perm.length_eq
  rw [← made'.each.length_eq, ← made.each.length_eq, two, one] at same
  cases same

end Client

end TypedClient
