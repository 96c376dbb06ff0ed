import TypedClient.Proofs.Document.Copy
import TypedClient.Proofs.Operation.Compilation
import TypedClient.Proofs.Parameter.Order

/-!
# Signatures

A method takes the parameters of the path, the request body and the query parameters, in this order,
and sorts them by how they may be left out. The interface and the implementation show the sorted
parameters one by one under the same names and types; a parameter that can be left out in the one can
be left out in the other, and so can all that stand behind it.
-/
namespace TypedClient.Operation

variable {g : Graph} {slot : Slot} {o : Operation}

namespace Parts.Of

variable {es : Entries} {parts : Parts} (made : parts.Of g slot es o)

include made

theorem parameters_perm : o.parameters.Perm parts.given :=
  made.parameters ▸ Parameter.sort_perm parts.given

/-- No parameter that must be given follows one that may be left out. -/
theorem pairwise_isRequired :
    o.parameters.Pairwise fun p q => q.isRequired = true → p.isRequired = true :=
  made.parameters ▸ Parameter.pairwise_isRequired_sort parts.given

/-- The fragments of the interface. -/
theorem definition_eq : o.definition = definitionText parts.comment o.name
    (Text.joinWith ", " ((o.parameters.map Parameter.shown).map Fragment.text)) o.responseType := by
  rw [made.definition, List.map_map]
  exact congrArg (fun l => definitionText parts.comment o.name (Text.joinWith ", " l) o.responseType)
    (List.map_congr_left fun p _ => p.definition_eq_text)

/-- The fragments of the implementation. -/
theorem arguments_eq : parts.arguments = (o.parameters.map (Parameter.taken g)).map Fragment.text := by
  rw [List.map_map]
  exact Except.eq_map_of_mapM (fun _ _ => Parameter.text_taken) made.arguments

end Parts.Of

/-- The parameters of a method are those of the path in the order of the route, then the body, then
the query, sorted by kind: first those that must be given, then those that may be left out, then those
with a default value, in each kind in the order before. Interface and implementation list the same
names and types in this order. In the interface no parameter without a mark follows one with a mark,
in the implementation none that must be given follows one that may be left out or has a default
value, and the marks of the interface are at the parameters of these two kinds. -/
theorem signatures_are_ordered_and_agree {claimed : List Scalar}
    (success : (compile g slot claimed).1 = .ok o) :
    ∃ parts : Parts, parts.Of g slot (g.fields slot.operation) o ∧
      List.Forall₂ (fun name p =>
          pathParameter g (place parts.route slot) o.id parts.declared name = .ok p)
        (placeholders slot.verb parts.route) parts.inPath ∧
      o.parameters.Perm
        (parts.inPath ++ (bodyParameter? parts.request).toList ++ parts.inQuery.toList) ∧
      o.parameters = parts.given.filter Parameter.isRequired ++
        parts.given.filter Parameter.isOptional ++ parts.given.filter Parameter.hasDefault ∧
      ∃ interface implementation : List Fragment,
        o.definition = definitionText parts.comment o.name
          (Text.joinWith ", " (interface.map Fragment.text)) o.responseType ∧
        o.implementation = implementationText o.name
          (Text.joinWith ", " (implementation.map Fragment.text)) o.responseType o.verb
          (Text.joinWith ", " (parts.call g o.verb o.route)) ∧
        interface.map (fun f => (f.name, f.type)) =
          o.parameters.map (fun p => (p.name, p.type.text)) ∧
        implementation.map (fun f => (f.name, f.type)) =
          o.parameters.map (fun p => (p.name, p.type.text)) ∧
        (∀ f ∈ interface, f.mark = .required ∨ f.mark = .optional) ∧
        interface.Pairwise (fun e f => e.mark = .optional → f.mark = .optional) ∧
        implementation.Pairwise (fun e f => f.mark = .required → e.mark = .required) ∧
        List.Forall₂ (fun e f => e.mark = .optional ↔
          f.mark = .optional ∨ ∃ literal, f.mark = .default literal) interface implementation := by
  obtain ⟨parts, made⟩ := exists_parts_of_compile success
  have sorted := made.pairwise_isRequired
  refine ⟨parts, made, forall₂_of_mapM made.inPath, made.parameters_perm, ?_,
    o.parameters.map Parameter.shown, o.parameters.map (Parameter.taken g), made.definition_eq,
    ?_, ?_, ?_, ?_, ?_, ?_, ?_⟩
  · rw [made.parameters, Parts.parameters, Parameter.sort_eq]
  · rw [made.implementation, made.arguments_eq]
  · rw [List.map_map]
    rfl
  · rw [List.map_map]
    rfl
  · exact List.forall_mem_map.mpr fun p _ => p.mark_shown_cases
  · refine List.pairwise_map.mpr (sorted.imp fun {p q} behind optional => ?_)
    rw [Parameter.mark_shown_iff, Bool.eq_false_iff] at optional ⊢
    exact fun required => optional (behind required)
  · refine List.pairwise_map.mpr (sorted.imp fun behind required => ?_)
    exact Parameter.mark_taken_iff.mpr (behind (Parameter.mark_taken_iff.mp required))
  · rw [List.forall₂_map_left_iff, List.forall₂_map_right_iff]
    exact List.forall₂_same.mpr fun p _ => p.mark_shown_iff_taken g

/-- A photo is added to a pet, which is the seventh if none is named. -/
def photoGraph : Graph :=
  ⟨#[.mapping [(.text "operationId", .text "addPhoto"), (.text "parameters", .node 1),
       (.text "requestBody", .node 6)],
     .list [.node 2, .node 4],
     .mapping [(.text "name", .text "petId"), (.text "in", .text "path"),
       (.text "required", .scalar (.bool true)), (.text "schema", .node 3)],
     .mapping [(.text "type", .text "integer"), (.text "default", .scalar (.int 7))],
     .mapping [(.text "name", .text "caption"), (.text "in", .text "query"),
       (.text "schema", .node 5)],
     .mapping [(.text "type", .text "string")],
     .mapping [(.text "$ref", .text "#/components/requestBodies/Photo")]]⟩

def photoSlot : Slot := ⟨"post", .text "/pets/{petId}/photos", .node 0, .ok [], .null⟩

/-- The body comes before the caption, which may be left out, and before the pet, which has a
default. -/
theorem photo_comes_before_its_pet :
    ∃ o, (compile photoGraph photoSlot []).1 = .ok o ∧
      o.parameters.map (·.name) = ["photoRequestBody", "params", "petId"] ∧
      ∃ interface implementation : List Fragment,
        interface.map (fun f => (f.name, f.type)) =
          o.parameters.map (fun p => (p.name, p.type.text)) ∧
        interface.Pairwise (fun e f => e.mark = .optional → f.mark = .optional) ∧
        implementation.Pairwise (fun e f => f.mark = .required → e.mark = .required) := by
  have evaluated : ((compile photoGraph photoSlot []).1.toOption.map fun o =>
      o.parameters.map (·.name)) = some ["photoRequestBody", "params", "petId"] := by decide +kernel
  obtain ⟨o, success, names⟩ := Except.exists_of_map_toOption evaluated
  obtain ⟨-, -, -, -, -, interface, implementation, -, -, binders, -, -, sorted, sorted', -⟩ :=
    signatures_are_ordered_and_agree success
  exact ⟨o, success, names, interface, implementation, binders, sorted, sorted'⟩

example : (compile photoGraph photoSlot []).1.toOption.map (·.definition) =
    some ("  addPhoto(photoRequestBody: PhotoRequestBody, params?: \x7bcaption?: string\x7d, " ++
      "petId?: number): AxiosPromise<unknown>;") := by
  decide +kernel

end TypedClient.Operation
