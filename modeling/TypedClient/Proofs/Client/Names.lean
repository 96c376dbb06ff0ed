import Mathlib.Data.List.Nodup
import TypedClient.Proofs.Client.Compilation

/-!
# Names of models

The models of a client are named after the components of its document, each with the ending of its
namespace; the model of a response after the identifier of its operation, as a response component of
that name would be. Nothing keeps two of them from having one name. The names differ exactly if no
two of one namespace are the same in pascal case and no schema is called as a component of another
namespace is with its ending. Of models with one name, the last is the one that is written in the
end.
-/
namespace TypedClient

namespace Reference

/-- What the name of a type is made of. -/
def stem (r : Reference) : Namespace × String := (r.namespace_, Naming.pascalCase r.name)

/-- The names of the types differ: no two references of one namespace are the same in pascal case,
and no schema has the name of a type from another namespace. -/
structure Apart (refs : List Reference) : Prop where
  stems : (refs.map stem).Nodup
  schemas : ∀ r ∈ refs, r.namespace_ = .schemas → ∀ r' ∈ refs, r'.namespace_ ≠ .schemas →
    Naming.pascalCase r.name ≠ r'.typeName

/-- Types from two namespaces have different names, unless one of the namespaces has no ending. -/
theorem namespace_eq_of_typeName {r r' : Reference} (same : r.typeName = r'.typeName)
    (ends : r.namespace_ ≠ .schemas) (ends' : r'.namespace_ ≠ .schemas) :
    r.namespace_ = r'.namespace_ := by
  have endings : ∀ ns ns' : Namespace, ns ≠ .schemas → ns' ≠ .schemas →
      ns.ending.toList <:+ ns'.ending.toList → ns = ns' := by
    intro ns ns'
    cases ns <;> cases ns' <;> decide
  have letters := congrArg String.toList same
  rw [typeName, typeName, String.toList_append, String.toList_append] at letters
  have ending : r.namespace_.ending.toList <:+ (Naming.pascalCase r'.name).toList ++
      r'.namespace_.ending.toList := letters ▸ List.suffix_append _ _
  rcases List.suffix_or_suffix_of_suffix ending (List.suffix_append _ _) with shorter | longer
  · exact endings _ _ ends ends' shorter
  · exact (endings _ _ ends' ends longer).symm

theorem stem_eq_of_typeName {refs : List Reference} (apart : Apart refs) {r r' : Reference}
    (member : r ∈ refs) (member' : r' ∈ refs) (same : r.typeName = r'.typeName) :
    r.stem = r'.stem := by
  have bare : ∀ s : Reference, s.namespace_ = .schemas → s.typeName = Naming.pascalCase s.name := by
    intro s schema
    rw [typeName, schema, Namespace.ending, String.append_empty]
  have equal : r.namespace_ = r'.namespace_ := by
    by_cases schema : r.namespace_ = .schemas
    · by_cases schema' : r'.namespace_ = .schemas
      · exact schema.trans schema'.symm
      · exact absurd ((bare r schema).symm.trans same)
          (apart.schemas r member schema r' member' schema')
    · by_cases schema' : r'.namespace_ = .schemas
      · exact absurd ((bare r' schema').symm.trans same.symm)
          (apart.schemas r' member' schema' r member schema)
      · exact namespace_eq_of_typeName same schema schema'
  rw [typeName, typeName, equal] at same
  have letters := congrArg String.toList same
  rw [String.toList_append, String.toList_append] at letters
  exact Prod.ext equal (String.toList_inj.mp (List.append_cancel_right letters))

theorem nodup_typeName_iff {refs : List Reference} : (refs.map typeName).Nodup ↔ Apart refs := by
  have made : refs.map typeName = (refs.map stem).map fun s => s.2 ++ s.1.ending := by
    rw [List.map_map]
    rfl
  constructor
  · intro distinct
    constructor
    · rw [made] at distinct
      exact List.Nodup.of_map _ distinct
    · intro r member schema r' member' other same
      have equal : r.typeName = r'.typeName := by
        rw [← same, typeName, schema, Namespace.ending, String.append_empty]
      rw [List.inj_on_of_nodup_map distinct member member' equal] at schema
      exact other schema
  · intro apart
    rw [made]
    refine List.Nodup.map_on ?_ apart.stems
    intro s member s' member' same
    obtain ⟨r, listed, rfl⟩ := List.mem_map.mp member
    obtain ⟨r', listed', rfl⟩ := List.mem_map.mp member'
    exact stem_eq_of_typeName apart listed listed' same

end Reference

namespace Client

variable {g : Graph} {document : Value}

/-- What the models of a client are named after: the components of the document, and the operations
whose response has a model. -/
def modelled (g : Graph) (document : Value) (operations : List Operation) : List Reference :=
  (Model.componentsOf g document).map Component.reference ++
    (operations.filter (·.responseModel.isSome)).map fun o => ⟨.responses, o.id⟩

theorem names_of_componentModels {models : List Model}
    (success : componentModels g document = .ok models) :
    models.map (·.name) =
      ((Model.componentsOf g document).map Component.reference).map Reference.typeName := by
  rw [eq_comm, ← List.forall₂_eq_eq_eq, List.map_map, List.forall₂_map_left_iff,
    List.forall₂_map_right_iff]
  refine (each_of_componentModels success).imp fun c m success => ?_
  obtain ⟨⟨key, text, named⟩, -⟩ := Model.of_ofComponent success
  rw [Function.comp_apply, named, Component.reference, text]
  rfl

theorem names_of_responseModels {operations : List Operation}
    (each : ∀ o ∈ operations, ∀ m, o.responseModel = some m →
      m.name = Reference.typeName ⟨.responses, o.id⟩) :
    (operations.filterMap (·.responseModel)).map (·.name) =
      ((operations.filter (·.responseModel.isSome)).map fun o =>
        (⟨.responses, o.id⟩ : Reference)).map Reference.typeName := by
  induction operations with
  | nil => rfl
  | cons o rest ih =>
    have others := ih fun o' member => each o' (List.mem_cons_of_mem _ member)
    cases lifted : o.responseModel with
    | none => simpa [List.filterMap_cons, List.filter_cons, lifted] using others
    | some m =>
      have named := each o List.mem_cons_self m lifted
      simpa [List.filterMap_cons, List.filter_cons, lifted, named] using others

/-- No model of a client is overwritten by another if what the models are named after is apart, and
only then do all names differ. In any case the file of a model holds the last model of its name. -/
theorem models_are_kept_if_named_apart {transformer : Option Transformer}
    {validator : Option Validator} {c : Client}
    (success : (generate g document transformer validator).result = .ok c) :
    ∃ g' document' h operations,
      transformed g document transformer = .ok (g', document') ∧
      (Discriminator.propagate g' document').result = .ok h ∧
      List.Forall₂ (Operation.CompiledFrom h) (slotsOf h document') operations ∧
      c.models.map (·.name) = (modelled h document' operations).map Reference.typeName ∧
      ((c.models.map (·.name)).Nodup ↔ Reference.Apart (modelled h document' operations)) ∧
      (∀ m ∈ c.models, Output.finalText (Output.files c) ("models/" ++ m.name ++ ".ts") =
        (c.models.reverse.find? fun m' => m'.name = m.name).map Output.model) ∧
      (Reference.Apart (modelled h document' operations) → ∀ m ∈ c.models,
        Output.finalText (Output.files c) ("models/" ++ m.name ++ ".ts") =
          some (Output.model m)) := by
  obtain ⟨g', document', report, h, title, models, operations, start, -, -, propagated, made, rfl⟩ :=
    generate_eq_ok_iff.mp success
  have lifted : ∀ o ∈ operations, ∀ m, o.responseModel = some m →
      m.name = Reference.typeName ⟨.responses, o.id⟩ := by
    intro o member m model
    obtain ⟨slot, -, compiled⟩ := exists_right_of_forall₂ made.each.flip member
    obtain ⟨parts, made⟩ := compiled.exists_parts
    exact (made.of_responseModel model).1
  have names : ((assemble title models operations report).models.map (·.name)) =
      (modelled h document' operations).map Reference.typeName := by
    rw [assemble, modelled, List.map_append, List.map_append, names_of_componentModels made.models,
      names_of_responseModels lifted]
  have plain : ∀ m ∈ (assemble title models operations report).models, m.name ≠ "index" := by
    intro m member
    have named := List.mem_map_of_mem (f := (·.name)) member
    rw [names] at named
    obtain ⟨r, -, same⟩ := List.mem_map.mp named
    rw [← same]
    refine Output.pascalCase_append_ne_index r.name ?_
    cases r.namespace_ <;> decide
  refine ⟨g', document', h, operations, start, propagated, made.each, names, ?_, ?_, ?_⟩
  · rw [names, Reference.nodup_typeName_iff]
  · exact fun m member => Output.finalText_modelFile (plain m member)
  · intro apart m member
    rw [← Reference.nodup_typeName_iff, ← names] at apart
    exact Output.finalText_of_nodup apart member (plain m member)

/-- One key in all namespaces, and an operation whose response is a record. -/
def petEverywhere : Graph :=
  ⟨#[.mapping [(.text "openapi", .text "3.0.3"), (.text "components", .node 1),
       (.text "paths", .node 4)],
     .mapping [(.text "schemas", .node 2), (.text "responses", .node 2),
       (.text "requestBodies", .node 2), (.text "parameters", .node 2)],
     .mapping [(.text "pet", .node 3)],
     .mapping [(.text "description", .text "A pet")],
     .mapping [(.text "/pets", .node 5)],
     .mapping [(.text "get", .node 6)],
     .mapping [(.text "operationId", .text "findPet"), (.text "responses", .node 7)],
     .mapping [(.text "200", .node 8)],
     .mapping [(.text "content", .node 9)],
     .mapping [(.text "application/json", .node 10)],
     .mapping [(.text "schema", .node 11)],
     .mapping [(.text "properties", .node 12)],
     .mapping [(.text "name", .node 13)],
     .mapping [(.text "type", .text "string")]]⟩

theorem pets_of_all_namespaces_are_kept :
    ∃ c, (generate petEverywhere (.node 0) none none).result = .ok c ∧
      c.models.map (·.name) =
        ["Pet", "PetResponse", "PetRequestBody", "PetParameter", "FindPetResponse"] ∧
      (c.models.map (·.name)).Nodup ∧
      ∀ m ∈ c.models, Output.finalText (Output.files c) ("models/" ++ m.name ++ ".ts") =
        some (Output.model m) := by
  have evaluated : ((generate petEverywhere (.node 0) none none).result.toOption.map fun c =>
      c.models.map (·.name)) =
      some ["Pet", "PetResponse", "PetRequestBody", "PetParameter", "FindPetResponse"] := by
    decide +kernel
  obtain ⟨c, success, names⟩ := Except.exists_of_map_toOption evaluated
  obtain ⟨g, document, h, operations, -, -, -, -, differ, -, kept⟩ :=
    models_are_kept_if_named_apart success
  have distinct : (c.models.map (·.name)).Nodup := by
    rw [names]
    decide
  exact ⟨c, success, names, distinct, kept (differ.mp distinct)⟩

/-- Two schemas that are the same in pascal case. -/
def twoPetStores : Graph :=
  ⟨#[.mapping [(.text "openapi", .text "3.0.3"), (.text "components", .node 1)],
     .mapping [(.text "schemas", .node 2)],
     .mapping [(.text "pet-store", .node 3), (.text "pet_store", .node 4)],
     .mapping [(.text "type", .text "string")],
     .mapping [(.text "type", .text "integer")]]⟩

/-- The second pet store overwrites the first, whose declaration is another one. -/
theorem second_pet_store_overwrites_the_first :
    ∃ c first second, (generate twoPetStores (.node 0) none none).result = .ok c ∧
      c.models = [first, second] ∧ first.name = second.name ∧
      first.declaration ≠ second.declaration ∧
      Output.finalText (Output.files c) ("models/" ++ first.name ++ ".ts") =
        some (Output.model second) ∧
      Output.model second ≠ Output.model first := by
  have evaluated : ((generate twoPetStores (.node 0) none none).result.toOption.map fun c =>
      (c.models, Output.finalText (Output.files c) "models/PetStore.ts")) =
      some ([⟨"PetStore", "export type PetStore = string;", []⟩,
        ⟨"PetStore", "export type PetStore = number;", []⟩],
        some (Output.model ⟨"PetStore", "export type PetStore = number;", []⟩)) := by
    decide +kernel
  obtain ⟨c, success, same⟩ := Except.exists_of_map_toOption evaluated
  obtain ⟨models, text⟩ := Prod.mk.inj same
  exact ⟨c, _, _, success, models, rfl, by decide, text, by decide +kernel⟩

end Client

end TypedClient
