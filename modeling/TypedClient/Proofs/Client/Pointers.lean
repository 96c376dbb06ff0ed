import TypedClient.Proofs.Client.Operations
import TypedClient.Proofs.Operation.References
import TypedClient.Proofs.Parameter.Pointers
import TypedClient.Proofs.Schema.Tree

/-!
# Where generation fails at the parameters of an operation

Generation that fails while the parameters of an operation are merged fails at a reference in the list
of its route or in its own list. The pointer of the failure leads there from the root of the document,
whatever characters the route has, as it is escaped and so has no slash: cutting the verb off leaves
the pointer of the route. Discriminators change no list and move no operation.
-/
namespace TypedClient

open Pointer (written escape)

/-- The second graph has the lists of the first. -/
def Graph.KeepsLists (g h : Graph) : Prop :=
  ∀ v id items, g.view v = .list id items → h.view v = .list id items

/-- Discriminators leave lists as they are. -/
theorem Discriminator.keepsLists_of_propagate {g h : Graph} {document : Value}
    (success : (propagate g document).result = .ok h) : g.KeepsLists h :=
  related_of_propagate (fun _ _ => {
    refl := fun _ _ _ _ list => list
    trans := fun _ _ _ first second v id items list => second v id items (first v id items list)
    restrict := fun g target fields literal view _ v id items list => by
      rcases view_restrict view literal v with ⟨rfl, -⟩ | ⟨rfl, -⟩ | same
      · cases view.symm.trans list
      · cases g.view_new.symm.trans list
      · exact same.trans list }) success

/-- Mappings have each key once if those among the nodes do. -/
theorem Graph.nodup_keys_of_nodes {g : Graph}
    (each : ∀ id < g.nodes.size, (Entries.keys (g.fields (.node id))).Nodup) (v : Value) :
    (Entries.keys (g.fields v)).Nodup := by
  cases v with
  | scalar s => exact .nil
  | node id =>
    by_cases old : id < g.nodes.size
    · exact each id old
    · have missing := Array.getElem?_eq_none (Nat.le_of_not_lt old)
      rw [fields_of_other (by rw [entries?, view, missing])]
      exact .nil

namespace Run

theorem andThen_of_ok {α β : Type} {r : Run α} {next : α → Run β} {a : α} (first : r.result = .ok a) :
    (r.andThen next).result = (next a).result := by
  unfold andThen
  rw [first]

theorem andThen_of_error {α β : Type} {r : Run α} {next : α → Run β} {s : Stop}
    (first : r.result = .error s) : (r.andThen next).result = .error s := by
  unfold andThen
  rw [first]

end Run

namespace Operation

/-- Where an operation stands, as the pointer of escaped segments; its route stands above its verb. -/
theorem place_eq {slot : Slot} (known : slot.verb ∈ verbs) (route : String) :
    place route slot = "#" ++ written (["paths", route, slot.verb].map escape) ∧
      Pointer.parent (place route slot) = "#" ++ written (["paths", route].map escape) := by
  have spelled : "#" ++ written (["paths", route].map escape) = "#/paths/" ++ escape route := by
    have paths : escape "paths" = "paths" := by decide +kernel
    simp only [List.map_cons, List.map_nil, paths, written, String.append_empty]
    rw [← String.append_assoc, ← String.append_assoc, ← String.append_assoc]
    rfl
  have plain : escape slot.verb = slot.verb ∧ '/' ∉ slot.verb.toList := by
    generalize slot.verb = verb at known
    revert verb
    decide +kernel
  rw [place, Pointer.parent_append plain.2, spelled]
  have last : ["paths", route, slot.verb].map escape =
      ["paths", route].map escape ++ [escape slot.verb] := rfl
  refine ⟨?_, rfl⟩
  rw [last, Pointer.written_append, ← String.append_assoc, spelled, plain.1, String.append_assoc]
  exact congrArg _ (congrArg _ String.append_empty.symm)

/-- A failure to merge the parameters of an operation is that of an entry in the list of its route or in
its own list. -/
theorem exists_cannotFollow {g : Graph} {slot : Slot} {f : Failure} (known : slot.verb ∈ verbs)
    (ofShared : StopsBy (fun s => ∃ m, s = .malformed m) slot.shared)
    (failed : declared g slot = fail f) :
    ∃ (route : String) (path : List String) (vs : List Value) (n : Nat) (v : Value),
      slot.route = .text route ∧
      (slot.shared = .ok vs ∧ path = ["paths", route] ∨
        g.optionalElements ((g.fields slot.operation).field "parameters") = .ok vs ∧
          path = ["paths", route, slot.verb]) ∧
      vs[n]? = some v ∧ Declaration.CannotFollow g slot.components v
        ("#" ++ written (path.map escape) ++ "/parameters/" ++ toString n) f := by
  rcases StopsBy.of_bind failed with stopped | ⟨route, called, failed⟩
  · obtain ⟨m, ⟨⟩⟩ := StopsBy.asRoute (p := fun s => ∃ m, s = .malformed m) (fun m => ⟨m, rfl⟩) _ _
      stopped
  have ofOwn := StopsBy.optionalElements (p := fun s => ∃ m, s = .malformed m) (fun m => ⟨m, rfl⟩) g
    ((g.fields slot.operation).field "parameters")
  obtain ⟨base, vs, n, v, source, here, refused⟩ :=
    Declaration.exists_cannotFollow_of_merge ofShared ofOwn failed
  have routed := Value.scalar.inj (Value.asRoute_eq_ok called)
  obtain ⟨own, above⟩ := place_eq known route
  rcases source with ⟨shared, there⟩ | ⟨listed, there⟩
  · rw [there, above] at refused
    exact ⟨route, ["paths", route], vs, n, v, routed, .inl ⟨shared, rfl⟩, here, refused⟩
  · rw [there, own] at refused
    exact ⟨route, ["paths", route, slot.verb], vs, n, v, routed, .inr ⟨listed, rfl⟩, here, refused⟩

end Operation

namespace Client

variable {g h : Graph} {document : Value}

/-- Generation fails while the parameters of the operation at a slot are merged: all that comes before
succeeds, the operations in front of it are compiled and its identifier is claimed. -/
structure FailsMerging (g : Graph) (document : Value) (transformer : Option Transformer)
    (validator : Option Validator) (g' : Graph) (document' : Value) (h : Graph) (slot : Slot)
    (f : Failure) : Prop where
  transformed : transformed g document transformer = .ok (g', document')
  checked : ∃ version, Version.check g' document' none = .ok version
  validated : ∃ report, (validateIf g' document' validator).result = .ok report
  propagated : (Discriminator.propagate g' document').result = .ok h
  models : ∃ models, componentModels h document' = .ok models
  title : ∃ name, title h (h.fields document') = .ok name
  routes : ∃ es, h.optionalEntries ((h.fields document').field "paths") = .ok es
  reached : ∃ (before after : List Slot) (operations : List Operation) (es : Entries) (id : String),
    slotsOf h document' = before ++ slot :: after ∧
    (compileAll h [] before).result = .ok operations ∧ h.entries slot.operation = .ok es ∧
    Operation.claim h slot es ((operations.map (·.id)).map .text) = .ok (.text id)
  failed : Operation.declared h slot = fail f

theorem compileClaimed_of_declared {slot : Slot} {es : Entries} {id : String} {f : Failure}
    (entries : g.entries slot.operation = .ok es) (failed : Operation.declared g slot = fail f) :
    Operation.compileClaimed g slot es (.text id) = fail f := by
  unfold Operation.declared at failed
  rw [Graph.fields_of_entries entries] at failed
  unfold Operation.compileClaimed
  rcases StopsBy.of_bind failed with stopped | ⟨route, called, merging⟩
  · rw [stopped]
    rfl
  · have named : (Value.scalar (.text id)).asName = .ok id := rfl
    rw [Operation.place] at merging
    simp only [called, Except.ok_bind, named, merging]
    rfl

/-- Operations are compiled up to the first that cannot be, beside the identifiers of those before. -/
theorem compileAll_append {before after : List Slot} {slot : Slot} {operations : List Operation}
    {s : Stop} {ids : List String}
    (earlier : (compileAll g (ids.map .text) before).result = .ok operations)
    (stopped : (Operation.compile g slot ((ids ++ operations.map (·.id)).map .text)).1 = .error s) :
    (compileAll g (ids.map .text) (before ++ slot :: after)).result = .error s := by
  induction before generalizing ids operations with
  | nil =>
    cases earlier
    rw [List.map_nil, List.append_nil] at stopped
    exact Run.andThen_of_error stopped
  | cons first before ih =>
    rw [compileAll, Run.andThen_eq_ok_iff] at earlier
    simp only at earlier
    obtain ⟨o, compiled, earlier⟩ := earlier
    obtain ⟨others, following, finished⟩ := Run.andThen_eq_ok earlier
    cases finished
    obtain ⟨alone, new, next⟩ := Operation.compile_eq_ok_iff.mp (Prod.ext compiled rfl)
    have further : ids ++ (o :: others).map (·.id) = ids ++ [o.id] ++ others.map (·.id) := by simp
    have rest := ih (next ▸ following) (further ▸ stopped)
    rw [List.cons_append, compileAll, Operation.compile_eq_ok_iff.mpr ⟨alone, new, rfl⟩]
    exact (Run.andThen_of_ok rfl).trans (Run.andThen_of_error rest)

/-- Generation that fails while parameters are merged fails so as a whole. -/
theorem FailsMerging.result {transformer : Option Transformer} {validator : Option Validator}
    {g' : Graph} {document' : Value} {slot : Slot} {f : Failure}
    (fails : FailsMerging g document transformer validator g' document' h slot f) :
    (generate g document transformer validator).result = fail f := by
  obtain ⟨version, checked⟩ := fails.checked
  obtain ⟨report, validated⟩ := fails.validated
  obtain ⟨models, listed⟩ := fails.models
  obtain ⟨name, title⟩ := fails.title
  obtain ⟨paths, routes⟩ := fails.routes
  obtain ⟨before, after, operations, es, id, split, earlier, entries, claims⟩ := fails.reached
  have stopped : (Operation.compile h slot ((operations.map (·.id)).map .text)).1 = fail f := by
    unfold Operation.compile
    simp only [entries, claims]
    exact compileClaimed_of_declared entries fails.failed
  have all : (compileAll h [] (slotsOf h document')).result = fail f := by
    rw [split]
    exact @compileAll_append h before after slot operations _ [] earlier stopped
  -- from the operation outwards: each stage passes on what stops the one inside it
  obtain ⟨fields, top, -⟩ := Except.bind_eq_ok listed
  have start : (do
      let fields ← h.entries document'
      let title ← Client.title h fields
      let paths ← h.optionalEntries (fields.field "paths")
      return (title, slots h (fields.field "components") paths) : Result (String × List Slot)) =
        .ok (name, slotsOf h document') := by
    rw [Graph.fields_of_entries top] at title routes
    rw [top, Except.ok_bind, title, Except.ok_bind, routes, slotsOf, Graph.fields_of_entries top,
      Graph.fields_of_optionalEntries routes]
    rfl
  have api : (compileApi h document').result = fail f :=
    (Run.andThen_of_ok start).trans (Run.andThen_of_error all)
  have client : (ofDocument g' document' report).result = fail f :=
    (Run.andThen_of_ok fails.propagated).trans
      ((Run.andThen_of_ok listed).trans (Run.andThen_of_error api))
  have reported : ((validateIf g' document' validator).andThen fun report =>
      ofDocument g' document' report).result = fail f :=
    (Run.andThen_of_ok validated).trans client
  have current : ((Run.ofResult (Version.check g' document' none)).andThen fun _ =>
      (validateIf g' document' validator).andThen fun report =>
        ofDocument g' document' report).result = fail f :=
    (Run.andThen_of_ok checked).trans reported
  have start : (Run.ofResult (Client.transformed g document transformer)).result =
      .ok (g', document') := fails.transformed
  exact (Run.andThen_of_ok start).trans current

/-! ### The pointer of the failure -/

/-- An operation of the document as the discriminators leave it stands where it stood before. -/
theorem mem_endpoints_of_propagate (propagated : (Discriminator.propagate g document).result = .ok h)
    {paths : Value} {e : Endpoint} (member : e ∈ endpoints h paths) : e ∈ endpoints g paths := by
  have only := Discriminator.enumOnly_of_propagate propagated
  obtain ⟨stated, inside, known, mapping⟩ := mem_endpoints_iff.mp member
  have item : h.isMapping e.item = true := by
    by_contra other
    rw [Bool.not_eq_true, ← Graph.entries?_eq_none_iff] at other
    rw [Graph.fields_of_other other] at inside
    cases inside
  refine mem_endpoints_iff.mpr ⟨?_, ?_, known, (only.isMapping e.operation).symm.trans mapping⟩
  · refine (only.stated paths _ stated).resolve_right fun new => ?_
    exact Bool.false_ne_true (new.symm.trans item)
  · refine (only.stated e.item _ inside).resolve_right fun new => ?_
    exact Bool.false_ne_true (new.symm.trans mapping)

/-- What is merged from a list is what stands in it, each element under its number. -/
theorem exists_items_of_optionalElements {k : Graph} (keeps : k.KeepsLists h) {v w : Value}
    (list : Schema.IsListIfAny k v) {vs : List Value} (elements : h.optionalElements v = .ok vs)
    {n : Nat} (here : vs[n]? = some w) : ∃ id, k.view v = .list id vs := by
  rcases list with rfl | ⟨id, items, view⟩
  · cases elements
    cases here
  · have stated : h.elements? v = some items := by
      rw [Graph.elements?, keeps v id items view]
    rcases Graph.elements?_of_optionalElements elements with rfl | same
    · cases here
    · obtain rfl := Option.some.inj (stated.symm.trans same)
      exact ⟨id, view⟩

section Walk

variable {k : Graph} {root holder v : Value} {path : List String}

/-- Below what a path leads to, its parameters stand under their numbers. -/
theorem walk?_parameters (leads : k.walk? root path = some holder) {id : NodeId} {vs : List Value}
    (list : k.view ((k.fields holder).field "parameters") = .list id vs) {n : Nat}
    (here : vs[n]? = some v) :
    k.walk? root (path ++ ["parameters", toString n]) = some v := by
  have given : (k.fields holder).field "parameters" ≠ .null := by
    intro null
    rw [null] at list
    cases list
  rw [Graph.walk?_append, leads, Option.bind_some, Graph.walk?_cons (Graph.step?_field_fields given)]
  exact Graph.walk?_cons ((Graph.step?_of_view_list list n).trans here) []

/-- A parameter that is merged from the list under a value to which a path leads is an element of that
list before discriminators are settled, and its pointer leads to it. -/
theorem leads_to_parameter (propagated : (Discriminator.propagate k root).result = .ok h)
    (leads : k.walk? root path = some holder)
    (list : Schema.IsListIfAny k ((k.fields holder).field "parameters")) {vs : List Value}
    (elements : h.optionalElements ((h.fields holder).field "parameters") = .ok vs) {n : Nat}
    (here : vs[n]? = some v) :
    ∃ id, k.view ((k.fields holder).field "parameters") = .list id vs ∧
      k.Leads root (written ((path ++ ["parameters", toString n]).map escape)) v := by
  rw [(Discriminator.restricts_of_propagate propagated).field holder "parameters" (by decide)]
    at elements
  have keeps := Discriminator.keepsLists_of_propagate propagated
  obtain ⟨id, view⟩ := exists_items_of_optionalElements keeps list elements here
  exact ⟨id, view, Graph.leads_written_escape (walk?_parameters leads view here)⟩

theorem written_parameters (path : List String) (n : Nat) :
    "#" ++ written ((path ++ ["parameters", toString n]).map escape) =
      "#" ++ written (path.map escape) ++ "/parameters/" ++ toString n := by
  have parameters : escape "parameters" = "parameters" := by decide +kernel
  have last : written ["parameters", toString n] = "/parameters/" ++ toString n :=
    Pointer.written_pair _ _
  rw [List.map_append, Pointer.written_append, List.map_cons, List.map_cons, List.map_nil, parameters,
    Pointer.escape_toString, last, ← String.append_assoc, ← String.append_assoc]

variable (distinct : ∀ v, (Entries.keys (k.fields v)).Nodup) {e : Endpoint} {route verb : String}
  (member : e ∈ endpoints k ((k.fields root).field "paths")) (routed : e.route = .text route)

include distinct member routed

theorem walk?_item : k.walk? root ["paths", route] = some e.item := by
  obtain ⟨stated, -⟩ := mem_endpoints_iff.mp member
  have given : (k.fields root).field "paths" ≠ .null := by
    intro null
    rw [null] at stated
    cases stated
  rw [Graph.walk?_cons (Graph.step?_field_fields given)]
  exact Graph.walk?_cons (Graph.step?_of_mem_fields (distinct _) (routed ▸ stated)) []

theorem walk?_operation (spelled : .text verb = e.verb) :
    k.walk? root ["paths", route, verb] = some e.operation := by
  obtain ⟨-, inside, -⟩ := mem_endpoints_iff.mp member
  have whole : k.walk? root (["paths", route] ++ [verb]) = some e.operation := by
    rw [Graph.walk?_append, walk?_item distinct member routed, Option.bind_some]
    exact Graph.walk?_cons (Graph.step?_of_mem_fields (distinct _) (spelled ▸ inside)) []
  exact whole

end Walk

/-- Generation that fails while the parameters of an operation are merged fails with an entry of a list:
that of the route or that of the operation. The entry is a reference that is none to a component
parameter or to one that there is not, as the failure says, and the pointer of the failure, read segment
by segment, leads from the root of the document to just this entry, whatever the route is. -/
theorem failure_leads_to_the_reference {transformer : Option Transformer}
    {validator : Option Validator} {g' : Graph} {document' : Value} {slot : Slot} {f : Failure}
    (distinct : ∀ v, (Entries.keys (g'.fields v)).Nodup)
    (lists : ∀ e ∈ endpoints g' ((g'.fields document').field "paths"),
      Schema.IsListIfAny g' ((g'.fields e.item).field "parameters") ∧
      Schema.IsListIfAny g' ((g'.fields e.operation).field "parameters"))
    (fails : FailsMerging g document transformer validator g' document' h slot f) :
    (generate g document transformer validator).result = fail f ∧
    ∃ (e : Endpoint) (list v : Value) (id : NodeId) (vs : List Value) (n : Nat) (pointer : String),
      e ∈ endpoints g' ((g'.fields document').field "paths") ∧ slot.route = e.route ∧
      .text slot.verb = e.verb ∧
      (list = (g'.fields e.item).field "parameters" ∨
        list = (g'.fields e.operation).field "parameters") ∧
      g'.view list = .list id vs ∧ vs[n]? = some v ∧
      Declaration.CannotFollow h slot.components v ("#" ++ pointer) f ∧
      g'.Leads document' pointer v := by
  refine ⟨fails.result, ?_⟩
  obtain ⟨before, after, operations, es, id, split, -⟩ := fails.reached
  have propagated := fails.propagated
  have stands : slot ∈ slotsOf h document' := split ▸ List.mem_append_right _ List.mem_cons_self
  rw [slotsOf_eq] at stands
  obtain ⟨e, member, rfl⟩ := List.mem_map.mp stands
  rw [(Discriminator.restricts_of_propagate propagated).field document' "paths" (by decide)] at member
  have member := mem_endpoints_of_propagate propagated member
  obtain ⟨-, -, known, -⟩ := mem_endpoints_iff.mp member
  obtain ⟨verb, listed, spelled⟩ := List.mem_map.mp known
  have named : (e.slot h ((h.fields document').field "components")).verb = verb := by
    rw [Endpoint.slot, ← spelled]
    rfl
  have ofShared := StopsBy.optionalElements (p := fun s => ∃ m, s = .malformed m) (fun m => ⟨m, rfl⟩) h
    ((h.fields e.item).field "parameters")
  obtain ⟨route, path, vs, n, v, routed, stands, here, refused⟩ :=
    Operation.exists_cannotFollow (named ▸ listed) ofShared fails.failed
  rw [← written_parameters] at refused
  rcases stands with ⟨shared, rfl⟩ | ⟨own, rfl⟩
  · obtain ⟨id, list, leads⟩ := leads_to_parameter propagated
      (walk?_item distinct member routed) (lists e member).1 shared here
    exact ⟨e, _, v, id, vs, n, _, member, rfl, named ▸ spelled, .inl rfl, list, here, refused, leads⟩
  · obtain ⟨id, list, leads⟩ := leads_to_parameter propagated
      (walk?_operation distinct member routed (named.symm ▸ spelled)) (lists e member).2 own here
    exact ⟨e, _, v, id, vs, n, _, member, rfl, named ▸ spelled, .inr rfl, list, here, refused, leads⟩

/-- A route with a slash and a tilde, whose parameter is a component that there is not. -/
def lostParameter : Graph :=
  ⟨#[.mapping [(.text "openapi", .text "3.0.3"), (.text "paths", .node 1)],
     .mapping [(.text "/pets/~all", .node 2)],
     .mapping [(.text "parameters", .node 3), (.text "get", .node 5)],
     .list [.node 4],
     .mapping [(.text "$ref", .text "#/components/parameters/Limit")],
     .mapping [(.text "operationId", .text "listPets")]]⟩

def lostEndpoint : Endpoint := ⟨.text "/pets/~all", .node 2, .text "get", .node 5⟩

theorem endpoints_lostParameter :
    endpoints lostParameter ((lostParameter.fields (.node 0)).field "paths") = [lostEndpoint] := by
  decide +kernel

theorem lost_parameter_fails_merging :
    FailsMerging lostParameter (.node 0) none none lostParameter (.node 0) lostParameter
      (lostEndpoint.slot lostParameter .null)
      (.unresolvedReference "#/components/parameters/Limit"
        (some "#/paths/~1pets~1~0all/parameters/0")) where
  transformed := rfl
  checked := Except.exists_ok (by decide +kernel)
  validated := ⟨none, rfl⟩
  propagated := by decide +kernel
  models := Except.exists_ok (by decide +kernel)
  title := Except.exists_ok (by decide +kernel)
  routes := Except.exists_ok (by decide +kernel)
  reached := by
    have components : (lostParameter.fields (.node 0)).field "components" = .null := by decide +kernel
    refine ⟨[], [], [], [(.text "operationId", .text "listPets")], "listPets", ?_, rfl, ?_, ?_⟩
    · rw [slotsOf_eq, endpoints_lostParameter, components]
      rfl
    · decide +kernel
    · decide +kernel
  failed := by decide +kernel

theorem lost_parameter_is_led_to :
    (generate lostParameter (.node 0) none none).result =
      fail (.unresolvedReference "#/components/parameters/Limit"
        (some "#/paths/~1pets~1~0all/parameters/0")) ∧
    (∃ (v : Value) (pointer : String),
      Declaration.CannotFollow lostParameter .null v ("#" ++ pointer)
        (.unresolvedReference "#/components/parameters/Limit"
          (some "#/paths/~1pets~1~0all/parameters/0")) ∧
      lostParameter.Leads (.node 0) pointer v) ∧
    lostParameter.Leads (.node 0) "/paths/~1pets~1~0all/parameters/0" (.node 4) := by
  have distinct : ∀ v, (Entries.keys (lostParameter.fields v)).Nodup :=
    Graph.nodup_keys_of_nodes (by decide +kernel)
  have lists : ∀ e ∈ endpoints lostParameter
        ((lostParameter.fields (.node 0)).field "paths"),
      Schema.IsListIfAny lostParameter ((lostParameter.fields e.item).field "parameters") ∧
      Schema.IsListIfAny lostParameter ((lostParameter.fields e.operation).field "parameters") := by
    rw [endpoints_lostParameter]
    intro e member
    obtain rfl := List.mem_singleton.mp member
    exact ⟨.inr ⟨3, [.node 4], by decide +kernel⟩, .inl (by decide +kernel)⟩
  obtain ⟨result, -, -, v, -, -, -, pointer, -, -, -, -, -, -, refused, leads⟩ :=
    failure_leads_to_the_reference distinct lists lost_parameter_fails_merging
  refine ⟨result, ⟨v, pointer, refused, leads⟩, ["paths", "/pets/~all", "parameters", "0"], ?_, ?_⟩
  · decide +kernel
  · decide +kernel

end Client

end TypedClient
