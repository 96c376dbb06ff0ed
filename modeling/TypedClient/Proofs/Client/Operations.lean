import TypedClient.Proofs.Client.Compilation
import TypedClient.Proofs.Discriminator.Confinement

/-!
# The operations of a client

A client has one method for each verb of each route under which an operation stands, in the order of
the document. The operations are read from the document as its discriminators leave it. They write
into the routes only where the mapping of the routes is at the same time a property of a component,
and even there only the route `enum` can be another one afterwards.
-/
namespace TypedClient

/-- A place of a document where an operation stands. -/
structure Endpoint where
  route : Scalar
  item : Value
  verb : Scalar
  operation : Value
  deriving DecidableEq, Repr

/-- The operation at a place, with what it is compiled from besides. -/
def Endpoint.slot (g : Graph) (components : Value) (e : Endpoint) : Slot where
  verb := e.verb.display
  route := e.route
  operation := e.operation
  shared := g.optionalElements ((g.fields e.item).field "parameters")
  components := components

namespace Client

variable {g h : Graph} {document paths : Value}

/-- The verbs under one route that have a mapping as their value. -/
def endpointsOf (g : Graph) (e : Scalar × Value) : List Endpoint :=
  ((g.fields e.2).filter fun verb =>
    decide (verb.1 ∈ Operation.verbs.map .text) && g.isMapping verb.2).map
      fun verb => ⟨e.1, e.2, verb.1, verb.2⟩

/-- The verbs under the routes of a document, in its order. -/
def endpoints (g : Graph) (paths : Value) : List Endpoint := (g.fields paths).flatMap (endpointsOf g)

theorem routeSlots_eq (g : Graph) (components : Value) (route : Scalar) (item : Value) :
    routeSlots g components route item =
      (endpointsOf g (route, item)).map (Endpoint.slot g components) := by
  unfold routeSlots endpointsOf
  cases entries : g.entries? item with
  | none => simp [Graph.fields, entries]
  | some es =>
    rw [Graph.fields_of_entries? entries, List.map_map]
    simp only
    rw [← List.filterMap_eq_map, ← List.filterMap_eq_filter, List.filterMap_filterMap]
    refine List.filterMap_congr fun e _ => ?_
    obtain ⟨key, operation⟩ := e
    cases key with
    | text verb =>
      have listed : Scalar.text verb ∈ Operation.verbs.map .text ↔ verb ∈ Operation.verbs := by
        simp
      by_cases known : verb ∈ Operation.verbs <;> cases mapping : g.isMapping operation <;>
        simp [known, listed, mapping, Option.guard, Endpoint.slot,
          Graph.fields_of_entries? entries, Scalar.display]
    | _ => simp [Option.guard]

/-- The slots of a document are those of its endpoints. -/
theorem slotsOf_eq (g : Graph) (document : Value) :
    slotsOf g document = (endpoints g ((g.fields document).field "paths")).map
      (Endpoint.slot g ((g.fields document).field "components")) := by
  unfold slotsOf slots endpoints
  rw [List.map_flatMap]
  exact List.flatMap_congr fun e _ => routeSlots_eq g _ e.1 e.2

theorem mem_endpointsOf_iff {r : Scalar × Value} {e : Endpoint} : e ∈ endpointsOf g r ↔
    (e.route, e.item) = r ∧ (e.verb, e.operation) ∈ g.fields e.item ∧
      e.verb ∈ Operation.verbs.map .text ∧ g.isMapping e.operation = true := by
  constructor
  · intro member
    obtain ⟨v, inside, rfl⟩ := List.mem_map.mp member
    obtain ⟨inside, kept⟩ := List.mem_filter.mp inside
    obtain ⟨known, mapping⟩ := Bool.and_eq_true_iff.mp kept
    exact ⟨rfl, inside, of_decide_eq_true known, mapping⟩
  · rintro ⟨rfl, inside, known, mapping⟩
    refine List.mem_map.mpr ⟨_, List.mem_filter.mpr ⟨inside, ?_⟩, rfl⟩
    exact Bool.and_eq_true_iff.mpr ⟨decide_eq_true known, mapping⟩

theorem mem_endpoints_iff {e : Endpoint} : e ∈ endpoints g paths ↔
    (e.route, e.item) ∈ g.fields paths ∧ (e.verb, e.operation) ∈ g.fields e.item ∧
      e.verb ∈ Operation.verbs.map .text ∧ g.isMapping e.operation = true := by
  constructor
  · intro member
    obtain ⟨r, stated, member⟩ := List.mem_flatMap.mp member
    obtain ⟨rfl, inside⟩ := mem_endpointsOf_iff.mp member
    exact ⟨stated, inside⟩
  · rintro ⟨stated, inside⟩
    exact List.mem_flatMap.mpr ⟨_, stated, mem_endpointsOf_iff.mpr ⟨rfl, inside⟩⟩

/-! ### Endpoints and discriminators -/

/-- What discriminators write does not get into the routes: no route is called `enum`, or the
mapping of the routes does not stand among the components. -/
def RoutesApart (g : Graph) (document : Value) : Prop :=
  (∀ e ∈ g.fields ((g.fields document).field "paths"), e.1 ≠ .text "enum") ∨
  ∀ id, (g.fields document).field "paths" = .node id →
    ¬g.Contains ((g.fields document).field "components") (.node id)

theorem flatMap_filter_of_nil {α β : Type} {f : α → List β} {p : α → Bool} {l : List α}
    (nothing : ∀ x ∈ l, p x = false → f x = []) : (l.filter p).flatMap f = l.flatMap f := by
  induction l with
  | nil => rfl
  | cons x l ih =>
    have rest := ih fun y member => nothing y (List.mem_cons_of_mem _ member)
    cases here : p x with
    | true => rw [List.filter_cons_of_pos here, List.flatMap_cons, List.flatMap_cons, rest]
    | false =>
      rw [List.filter_cons_of_neg (by simp [here]), List.flatMap_cons, rest,
        nothing x List.mem_cons_self here, List.nil_append]

theorem endpointsOf_eq (only : Graph.EnumOnly g h) (e : Scalar × Value) :
    endpointsOf h e = endpointsOf g e := by
  have verb : ∀ key : Scalar, key ∈ Operation.verbs.map .text → key ≠ .text "enum" := by
    rintro key listed rfl
    exact absurd listed (by decide)
  have through : ∀ l : Entries, (l.filter fun v =>
      decide (v.1 ∈ Operation.verbs.map .text) && g.isMapping v.2) =
      (l.filter fun v => decide (v.1 ≠ .text "enum")).filter fun v =>
        decide (v.1 ∈ Operation.verbs.map .text) && g.isMapping v.2 := by
    intro l
    rw [List.filter_filter]
    refine List.filter_congr fun v _ => ?_
    by_cases listed : v.1 ∈ Operation.verbs.map .text <;> simp [listed, verb v.1]
  unfold endpointsOf
  simp only [only.isMapping]
  rw [through, only.others, ← through]

/-- Under all routes but `enum` the endpoints stay. -/
theorem endpoints_filter (g : Graph) (paths : Value) :
    (endpoints g paths).filter (fun e => decide (e.route ≠ .text "enum")) =
      ((g.fields paths).filter fun r => decide (r.1 ≠ .text "enum")).flatMap (endpointsOf g) := by
  have route : ∀ r, ∀ e ∈ endpointsOf g r, e.route = r.1 := by
    intro r e member
    obtain ⟨v, -, rfl⟩ := List.mem_map.mp member
    rfl
  unfold endpoints
  rw [List.filter_flatMap, ← flatMap_filter_of_nil (p := fun r => decide (r.1 ≠ .text "enum"))]
  · refine List.flatMap_congr fun r member => List.filter_eq_self.mpr fun e inside => ?_
    rw [route r e inside]
    exact (List.mem_filter.mp member).2
  · intro r _ other
    refine List.filter_eq_nil_iff.mpr fun e inside => ?_
    rw [route r e inside, other]
    simp

theorem endpoints_eq_of_apart (success : (Discriminator.propagate g document).result = .ok h)
    (apart : RoutesApart g document) :
    endpoints h ((g.fields document).field "paths") =
      endpoints g ((g.fields document).field "paths") := by
  have only := Discriminator.enumOnly_of_propagate success
  have each := funext (endpointsOf_eq only)
  generalize located : (g.fields document).field "paths" = paths
  rcases apart with unnamed | apart
  · rw [located] at unnamed
    have nothing : ∀ r ∈ h.fields paths, decide (r.1 ≠ .text "enum") = false →
        endpointsOf h r = [] := by
      intro r member named
      rcases only.stated paths r member with before | new
      · exact absurd (of_decide_eq_false named) (not_not.mpr (unnamed r before))
      · rw [endpointsOf, Graph.fields_of_other (Graph.entries?_eq_none_iff.mpr new)]
        rfl
    unfold endpoints
    rw [← flatMap_filter_of_nil nothing, only.others, each, List.filter_eq_self.mpr]
    exact fun r member => decide_eq_true (unnamed r member)
  · have same : h.fields paths = g.fields paths := by
      cases paths with
      | scalar s => rfl
      | node id =>
        by_cases old : id < g.nodes.size
        · have kept := Discriminator.getElem?_of_propagate success old (apart id located)
          rw [Graph.fields, Graph.fields, Graph.entries?, Graph.entries?,
            Graph.view_eq_of_getElem? kept]
        · -- a node that is not there is no mapping, and does not become one
          have absent : g.isMapping (.node id) = false := by
            have missing := Array.getElem?_eq_none (Nat.le_of_not_lt old)
            simp [Graph.isMapping, Graph.entries?, Graph.view, missing]
          have still := (only.isMapping (.node id)).trans absent
          rw [Graph.fields_of_other (Graph.entries?_eq_none_iff.mpr absent),
            Graph.fields_of_other (Graph.entries?_eq_none_iff.mpr still)]
    rw [endpoints, endpoints, same, each]

/-! ### Methods -/

/-- A client has one method for each endpoint of its document as the discriminators leave it: the
interface has the definitions of the operations there and the factory their implementations, all in
the order of the document, and behind the models of the components stand those of the responses that
are records. The identifiers of the operations are not empty and differ from each other. Under all
routes but `enum` the endpoints are those of the document as it was, and where what discriminators
write does not get into the routes they are so under all routes. -/
theorem one_method_per_endpoint {transformer : Option Transformer} {validator : Option Validator}
    {c : Client} (success : (generate g document transformer validator).result = .ok c) :
    ∃ g' document' h models operations,
      transformed g document transformer = .ok (g', document') ∧
      (Discriminator.propagate g' document').result = .ok h ∧
      componentModels h document' = .ok models ∧
      List.Forall₂ (fun e o => e.verb = .text o.verb ∧ Operation.CompiledFrom h
          (e.slot h ((g'.fields document').field "components")) o)
        (endpoints h ((g'.fields document').field "paths")) operations ∧
      (operations.map (·.id)).Nodup ∧
      c.api.definition = "export interface " ++ c.api.name ++ " \x7b\n" ++
        Text.lines (operations.map (·.definition)) ++ "\n\x7d" ∧
      c.api.implementation = "export const get" ++ c.api.name ++ " = (axios: AxiosInstance): " ++
        c.api.name ++ " => (\x7b\n" ++ Text.lines (operations.map (·.implementation)) ++ "\n\x7d)" ∧
      c.models = models ++ operations.filterMap (·.responseModel) ∧
      (endpoints h ((g'.fields document').field "paths")).filter
          (fun e => decide (e.route ≠ .text "enum")) =
        (endpoints g' ((g'.fields document').field "paths")).filter
          (fun e => decide (e.route ≠ .text "enum")) ∧
      (RoutesApart g' document' → endpoints h ((g'.fields document').field "paths") =
        endpoints g' ((g'.fields document').field "paths")) := by
  obtain ⟨g', document', report, h, name, models, operations, start, -, -, propagated, made, rfl⟩ :=
    generate_eq_ok_iff.mp success
  have restricts := Discriminator.restricts_of_propagate propagated
  have only := Discriminator.enumOnly_of_propagate propagated
  have each := made.each
  rw [slotsOf_eq, List.forall₂_map_left_iff, restricts.field document' "paths" (by decide),
    restricts.field document' "components" (by decide)] at each
  refine ⟨g', document', h, models, operations, start, propagated, made.models, ?_, made.distinct,
    rfl, rfl, rfl, ?_, endpoints_eq_of_apart propagated⟩
  · refine forall₂_imp_mem each fun e member o _ compiled => ⟨?_, compiled⟩
    obtain ⟨-, -, known, -⟩ := mem_endpoints_iff.mp member
    obtain ⟨verb, -, same⟩ := List.mem_map.mp known
    rw [compiled.verb, Endpoint.slot, ← same]
    rfl
  · rw [endpoints_filter, endpoints_filter, only.others, funext (endpointsOf_eq only)]

/-- Two routes with operations, and things between them that are none. -/
def petRoutes : Graph :=
  ⟨#[.mapping [(.text "openapi", .text "3.0.3"), (.text "paths", .node 1)],
     .mapping [(.text "/pets", .node 2), (.text "/owners", .text "later"), (.text "/health", .node 6)],
     .mapping [(.text "summary", .text "All pets"), (.text "get", .node 3), (.text "trace", .node 5),
       (.text "post", .node 4)],
     .mapping [(.text "operationId", .text "findPet"), (.text "responses", .node 8)],
     .mapping [(.text "operationId", .text "addPet")],
     .mapping [(.text "operationId", .text "tracePets")],
     .mapping [(.text "delete", .node 7)],
     .mapping [(.text "operationId", .text "endHealth")],
     .mapping [(.text "200", .node 9)],
     .mapping [(.text "content", .node 10)],
     .mapping [(.text "application/json", .node 11)],
     .mapping [(.text "schema", .node 12)],
     .mapping [(.text "properties", .node 13)],
     .mapping [(.text "name", .node 14)],
     .mapping [(.text "type", .text "string")]]⟩

theorem pet_routes_have_three_methods :
    ∃ (c : Client) (operations : List Operation),
      (generate petRoutes (.node 0) none none).result = .ok c ∧
      operations.map (·.id) = ["findPet", "addPet", "endHealth"] ∧
      c.api.definition = "export interface " ++ c.api.name ++ " \x7b\n" ++
        Text.lines (operations.map (·.definition)) ++ "\n\x7d" ∧
      c.models = operations.filterMap (·.responseModel) ∧
      c.models.map (·.name) = ["FindPetResponse"] := by
  have evaluated : ((generate petRoutes (.node 0) none none).result.toOption.map fun c =>
      c.models.map (·.name)) = some ["FindPetResponse"] := by
    decide +kernel
  cases success : (generate petRoutes (.node 0) none none).result with
  | error s =>
    rw [success] at evaluated
    cases evaluated
  | ok c =>
    rw [success] at evaluated
    obtain ⟨g, document, h, models, operations, start, propagated, components, each, -, definition,
      -, all, -, same⟩ := one_method_per_endpoint success
    cases start
    have unchanged : (Discriminator.propagate petRoutes (.node 0)).result = .ok petRoutes := by
      decide +kernel
    cases unchanged.symm.trans propagated
    have bare : componentModels petRoutes (.node 0) = .ok [] := by decide +kernel
    cases bare.symm.trans components
    rw [same (.inl (by decide +kernel))] at each
    have compiled := List.forall₂_map_left_iff.mpr (each.imp fun _ _ here => here.2)
    exact ⟨c, operations, rfl, ids_of_compiled compiled (by decide +kernel), definition, all,
      Option.some.inj evaluated⟩

/-- The mapping of the routes is at the same time a property that a discriminator restricts. -/
def aliasedRoutes : Graph :=
  ⟨#[.mapping [(.text "openapi", .text "3.0.0"), (.text "components", .node 1),
       (.text "paths", .node 8)],
     .mapping [(.text "schemas", .node 2)],
     .mapping [(.text "Base", .node 3), (.text "Pet", .node 6)],
     .mapping [(.text "discriminator", .node 4)],
     .mapping [(.text "propertyName", .text "kind"), (.text "mapping", .node 5)],
     .mapping [(.text "pet", .text "#/components/schemas/Pet")],
     .mapping [(.text "properties", .node 7)],
     .mapping [(.text "kind", .node 8)],
     .mapping [(.text "enum", .node 9)],
     .mapping [(.text "get", .node 10)],
     .mapping [(.text "operationId", .text "listPets")]]⟩

/-- The endpoint under a route `enum` gets no method if the mapping of the routes is at the same time
a restricted property. -/
theorem aliased_route_has_no_method :
    ∃ c, (generate aliasedRoutes (.node 0) none none).result = .ok c ∧
      endpoints aliasedRoutes (.node 8) = [⟨.text "enum", .node 9, .text "get", .node 10⟩] ∧
      c.api.definition = "export interface Api \x7b\n\n\x7d" ∧
      ¬∃ operations : List Operation, List.Forall₂ (fun e o =>
          Operation.CompiledFrom aliasedRoutes (e.slot aliasedRoutes (.node 1)) o)
        (endpoints aliasedRoutes (.node 8)) operations ∧
        c.api.definition = "export interface " ++ c.api.name ++ " \x7b\n" ++
          Text.lines (operations.map (·.definition)) ++ "\n\x7d" := by
  have evaluated : ((generate aliasedRoutes (.node 0) none none).result.toOption.map fun c =>
      (c.api.name, c.api.definition)) = some ("Api", "export interface Api \x7b\n\n\x7d") := by
    decide +kernel
  have place : endpoints aliasedRoutes (.node 8) =
      [⟨.text "enum", .node 9, .text "get", .node 10⟩] := by
    decide +kernel
  have alone : ((Operation.compile aliasedRoutes (Endpoint.slot aliasedRoutes (.node 1)
      ⟨.text "enum", .node 9, .text "get", .node 10⟩) []).1.toOption.map (·.definition)) =
      some "  listPets(): AxiosPromise<unknown>;" := by
    decide +kernel
  cases success : (generate aliasedRoutes (.node 0) none none).result with
  | error s =>
    rw [success] at evaluated
    cases evaluated
  | ok c =>
    rw [success] at evaluated
    obtain ⟨named, empty⟩ := Prod.mk.inj (Option.some.inj evaluated)
    refine ⟨c, rfl, place, empty, ?_⟩
    rintro ⟨operations, each, definition⟩
    rw [place] at each
    cases each with
    | @cons _ o _ _ first each =>
      cases each
      rw [first.compiled] at alone
      have stated : o.definition = "  listPets(): AxiosPromise<unknown>;" := Option.some.inj alone
      rw [empty, named, List.map_cons, List.map_nil, stated] at definition
      exact absurd definition (by decide +kernel)

end Client

end TypedClient
