import Mathlib.Data.List.TakeWhile
import TypedClient.Proofs.Model.References
import TypedClient.Proofs.Operation.Compilation
import TypedClient.Proofs.Parameter.References

/-!
# What operations refer to

The signature of an operation refers to the generated types that its parameters, its request body
and its response refer to. The parameters in force are those of the query and, for a placeholder of
the route, the one in the path with its name. Whatever an operation takes or returns is among its
imports; where the response is a record, the model of the response stands for it and imports what
the responses refer to.
-/
namespace TypedClient.Operation

variable {g : Graph}

/-- The declarations of the parameters that are in force for an operation. -/
def declared (g : Graph) (slot : Slot) : Result (List Declaration) := do
  let route ← (Value.scalar slot.route).asRoute
  Declaration.merge g slot.components (place route slot) slot.shared
    (g.optionalElements ((g.fields slot.operation).field "parameters"))

/-- A parameter or the request body of the operation refers to the generated type of this name. -/
inductive Takes (g : Graph) (slot : Slot) (name : String) : Prop
  | query {ds : List Declaration} {d : Declaration} (stated : declared g slot = .ok ds)
    (member : d ∈ ds) (here : d.isIn g "query" = true)
    (refers : Schema.Refers g (d.fields.field "schema") name)
  | path {ds : List Declaration} {d : Declaration} (stated : declared g slot = .ok ds)
    (member : d ∈ ds) (here : d.isIn g "path" = true)
    (called : d.name ∈ placeholders slot.verb slot.route.display)
    (refers : Schema.Refers g (d.fields.field "schema") name)
  | body (refers : Payload.Refers g ((g.fields slot.operation).field "requestBody") name)

/-- A response of the operation that reports success refers to the generated type of this name. -/
def Returns (g : Graph) (slot : Slot) (name : String) : Prop :=
  ∃ e ∈ g.fields ((g.fields slot.operation).field "responses"),
    e.1.display.toList.head? = some '2' ∧ Payload.Refers g e.2 name

/-- The signature of the operation at a slot refers to the generated type of this name. Where its
response is a record, it refers to the model of the response only. -/
inductive Refers (g : Graph) (slot : Slot) (o : Operation) (name : String) : Prop
  | takes (takes : Takes g slot name)
  | returns (plain : o.responseModel = none) (returns : Returns g slot name)
  | model {m : Model} (lifted : o.responseModel = some m) (named : m.name = name)

section Parts

variable {p : String} {ds : List Declaration}

theorem mem_imports_of_queryParameter? {query : Option Parameter}
    (success : queryParameter? g p ds = .ok query) (name : String) :
    (∃ param ∈ query, name ∈ param.type.imports) ↔
      ∃ d ∈ ds, Schema.Refers g (d.fields.field "schema") name := by
  unfold queryParameter? at success
  split at success
  · next empty =>
    cases success
    simp [List.isEmpty_iff.mp empty]
  · obtain ⟨param, compiled, same⟩ := Except.bind_eq_ok success
    cases same
    simpa using Parameter.mem_imports_of_ofQuery compiled name

/-- A parameter in the path is compiled from a declaration of its name, under the identifier of the
placeholder. -/
theorem exists_declaration_of_pathParameter {id name : String} {param : Parameter}
    (success : pathParameter g p id ds name = .ok param) :
    ∃ d ∈ ds, d.isIn g "path" = true ∧ d.name = name ∧
      Parameter.ofFields g (p ++ "/parameters/" ++ name)
        (some (Naming.placeholderIdentifier name)) d.fields = .ok param := by
  unfold pathParameter at success
  split at success
  · next d found =>
    obtain ⟨here, named⟩ := Bool.and_eq_true_iff.mp (List.find?_some
      (p := fun d : Declaration => d.isIn g "path" && decide (d.name = name)) found)
    exact ⟨d, List.mem_reverse.mp (List.mem_of_find?_eq_some found), here, of_decide_eq_true named,
      success⟩
  · cases success

/-- A request body is taken unless its type has no text. -/
theorem mem_imports_of_bodyParameter? {request : Payload} {item : String × Value}
    (success : Payload.ofItems g [item] = .ok request) (name : String) :
    (∃ param ∈ bodyParameter? request, name ∈ param.type.imports) ↔
      Payload.Refers g item.2 name ∧ request.text ≠ "" := by
  have imports := Payload.mem_imports_iff success name
  simp only [List.mem_singleton, exists_eq_left] at imports
  rw [← imports, bodyParameter?]
  by_cases empty : request.text = "" <;> simp [empty]

/-- The responses that report success contribute what they would as a list of items. -/
theorem ofItems_of_successPayload {responses : Entries} {payload : Payload}
    (success : successPayload g p responses = .ok payload) :
    Payload.ofItems g (successes p responses) = .ok payload := by
  obtain ⟨payload', each, success⟩ := Except.bind_eq_ok success
  split at success
  · next texts =>
    cases success
    rwa [List.takeWhile_eq_self_iff.mpr (List.all_eq_true.mp texts)] at each
  · cases success

/-- The responses that report success use the names that they refer to. -/
theorem mem_imports_of_successPayload {slot : Slot} {payload : Payload}
    (success : successPayload g p (g.fields ((g.fields slot.operation).field "responses")) =
      .ok payload) (name : String) : name ∈ payload.imports ↔ Returns g slot name := by
  rw [Payload.mem_imports_iff (ofItems_of_successPayload success)]
  constructor
  · rintro ⟨item, member, refers⟩
    obtain ⟨e, reported, rfl⟩ := List.mem_map.mp member
    obtain ⟨stated, succeeds⟩ := List.mem_filter.mp reported
    exact ⟨e, stated, of_decide_eq_true succeeds, refers⟩
  · rintro ⟨e, stated, succeeds, refers⟩
    refine ⟨_, List.mem_map_of_mem (List.mem_filter.mpr ⟨stated, ?_⟩), refers⟩
    exact decide_eq_true succeeds

end Parts

variable {slot : Slot} {o : Operation}

namespace Parts.Of

variable {parts : Parts} (made : parts.Of g slot (g.fields slot.operation) o)

include made

theorem declared_eq_ok : Operation.declared g slot = .ok parts.declared := by
  rw [Operation.declared, made.route, Except.ok_bind]
  exact made.declared

theorem route_eq_text : slot.route = .text parts.route :=
  Value.scalar.inj (Value.asRoute_eq_ok made.route)

theorem display_route : slot.route.display = parts.route := by
  rw [made.route_eq_text]
  rfl

/-- The parameters of an operation use names that it takes. -/
theorem takes_of_mem {param : Parameter} (member : param ∈ o.parameters) {name : String}
    (needed : name ∈ param.type.imports) : Takes g slot name := by
  rw [made.parameters, Parts.parameters, Parameter.mem_sort_iff, Parts.given] at member
  simp only [List.mem_append, Option.mem_toList] at member
  have stated := made.declared_eq_ok
  rcases member with (inPath | inBody) | inQuery
  · obtain ⟨called, placeholder, success⟩ := Except.exists_mem_of_mapM made.inPath param inPath
    obtain ⟨d, listed, here, rfl, compiled⟩ := exists_declaration_of_pathParameter success
    exact .path stated listed here (made.display_route ▸ placeholder)
      ((Parameter.mem_imports_of_ofFields compiled name).mp needed)
  · have body := mem_imports_of_bodyParameter? made.request name
    exact .body (body.mp ⟨param, inBody, needed⟩).1
  · have query := mem_imports_of_queryParameter? made.inQuery name
    obtain ⟨d, listed, refers⟩ := query.mp ⟨param, inQuery, needed⟩
    obtain ⟨listed, here⟩ := List.mem_filter.mp listed
    exact .query stated listed here refers

/-- Some parameter of an operation uses each name that the operation takes. -/
theorem exists_mem_of_takes {name : String} (named : name ≠ "") (takes : Takes g slot name) :
    ∃ param ∈ o.parameters, name ∈ param.type.imports := by
  rw [made.parameters, Parts.parameters, Parts.given]
  simp only [Parameter.mem_sort_iff, List.mem_append, Option.mem_toList]
  cases takes with
  | query stated listed here refers =>
    cases made.declared_eq_ok.symm.trans stated
    have query := mem_imports_of_queryParameter? made.inQuery name
    obtain ⟨param, inQuery, needed⟩ := query.mpr ⟨_, List.mem_filter.mpr ⟨listed, here⟩, refers⟩
    exact ⟨param, .inr inQuery, needed⟩
  | path stated listed here called refers =>
    cases made.declared_eq_ok.symm.trans stated
    rw [made.display_route] at called
    obtain ⟨param, inPath, success⟩ := Except.exists_of_mapM made.inPath _ called
    obtain ⟨d, listed', here', same, compiled⟩ := exists_declaration_of_pathParameter success
    obtain rfl := Declaration.eq_of_isIn made.declared listed' listed here' here same
    exact ⟨param, .inl (.inl inPath), (Parameter.mem_imports_of_ofFields compiled name).mpr refers⟩
  | body refers =>
    have used := (Payload.mem_imports_iff made.request name).mpr ⟨_, List.mem_cons_self, refers⟩
    have text : parts.request.text ≠ "" := fun empty =>
      named (Payload.eq_empty_of_mem_imports made.request empty name used)
    obtain ⟨param, inBody, needed⟩ :=
      (mem_imports_of_bodyParameter? made.request name).mpr ⟨refers, text⟩
    exact ⟨param, .inl (.inr inBody), needed⟩

theorem mem_imports_of_success (name : String) :
    name ∈ parts.success.imports ↔ Returns g slot name := by
  have succeeds := made.success
  rw [← Graph.fields_of_optionalEntries made.responses] at succeeds
  exact mem_imports_of_successPayload succeeds name

/-- An operation imports only what its signature refers to. -/
theorem refers_of_mem_imports {name : String} (needed : name ∈ o.imports) :
    Refers g slot o name := by
  rw [made.imports] at needed
  rcases List.mem_append.mp (Text.mem_distinct.mp needed) with needed | needed
  · obtain ⟨param, member, needed⟩ := List.mem_flatMap.mp needed
    exact .takes (made.takes_of_mem member needed)
  · cases lifted : o.responseModel with
    | none =>
      rw [lifted] at needed
      exact .returns lifted ((made.mem_imports_of_success name).mp needed)
    | some m =>
      rw [lifted] at needed
      exact .model lifted (List.mem_singleton.mp needed).symm

theorem mem_imports_of_refers {name : String} (named : name ≠ "") (refers : Refers g slot o name) :
    name ∈ o.imports := by
  rw [made.imports, Text.mem_distinct, List.mem_append, List.mem_flatMap]
  cases refers with
  | takes takes => exact .inl (made.exists_mem_of_takes named takes)
  | returns plain returns =>
    rw [plain]
    exact .inr ((made.mem_imports_of_success name).mpr returns)
  | model lifted same =>
    rw [lifted]
    exact .inr (List.mem_singleton.mpr same.symm)

/-- The model of a response is named as a response component would be. It imports what the responses
refer to, except its own name and names that are empty or built in. -/
theorem of_responseModel {m : Model} (lifted : o.responseModel = some m) :
    m.name = Reference.typeName ⟨.responses, o.id⟩ ∧
      ∀ name, name ∈ m.imports ↔ Returns g slot name ∧ name ≠ "" ∧ name ≠ m.name ∧
        Naming.isBuiltInType name = false := by
  have model := made.model.symm.trans lifted
  unfold responseModel? at model
  split at model
  · obtain rfl := Option.some.inj model
    refine ⟨rfl, fun name => ?_⟩
    rw [Model.ofText, Model.mem_neededImports_iff, made.mem_imports_of_success]
    simp
  · cases model

end Parts.Of

theorem CompiledFrom.exists_parts (compiled : CompiledFrom g slot o) :
    ∃ parts : Parts, parts.Of g slot (g.fields slot.operation) o :=
  exists_parts_of_compile compiled.compiled

/-- An operation imports what its signature refers to. -/
theorem mem_imports_iff (compiled : CompiledFrom g slot o) {name : String} (named : name ≠ "") :
    name ∈ o.imports ↔ Refers g slot o name := by
  obtain ⟨parts, made⟩ := compiled.exists_parts
  exact ⟨made.refers_of_mem_imports, made.mem_imports_of_refers named⟩

end TypedClient.Operation
