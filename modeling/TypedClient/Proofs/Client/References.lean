import TypedClient.Proofs.Client.Compilation
import TypedClient.Proofs.Operation.References

/-!
# What clients refer to

No import is missing from a client: each model imports the generated types that its declaration
refers to, and the interface those that the signatures of its operations refer to. What can not be
imported is left out, a name that is empty or that of a built-in type in any mixture of cases; only
components in the namespace of schemas have such names.
-/
namespace TypedClient

/-- The name can be imported: it is not empty and hides no built-in type. -/
def Naming.Importable (name : String) : Prop := name ≠ "" ∧ isBuiltInType name = false

instance (name : String) : Decidable (Naming.Importable name) :=
  inferInstanceAs (Decidable (_ ∧ _))

/-- A name can be imported if it ends as no built-in type does. -/
theorem Naming.importable_append {ending : String} (nonempty : ending ≠ "")
    (other : ∀ t ∈ builtInTypes, ¬ending.toList.map foldCase <:+ t.toList) (s : String) :
    Importable (s ++ ending) := by
  constructor
  · intro empty
    have letters := congrArg String.toList empty
    rw [String.toList_append] at letters
    exact nonempty (String.toList_inj.mp (List.append_eq_nil_iff.mp letters).2)
  · rw [isBuiltInType, List.contains_eq_mem, decide_eq_false_iff_not]
    intro listed
    refine other _ listed ?_
    rw [String.toList_ofList, String.toList_append, List.map_append]
    exact List.suffix_append _ _

/-- Only schemas have names that can not be imported. -/
theorem Reference.importable_of_ne_schemas {r : Reference} (other : r.namespace_ ≠ .schemas) :
    Naming.Importable r.typeName := by
  have endings : ∀ ns : Namespace, ns ≠ .schemas → ns.ending ≠ "" ∧
      ∀ t ∈ Naming.builtInTypes, ¬ns.ending.toList.map Naming.foldCase <:+ t.toList := by
    intro ns
    cases ns <;> decide
  exact Naming.importable_append (endings _ other).1 (endings _ other).2 _

namespace Client

variable {g : Graph} {document : Value}

/-- The model of a component has the name of its type and imports what its declaration refers to. -/
theorem imports_of_ofComponent {c : Component} {m : Model}
    (success : Model.ofComponent g c.ns c.key c.value = .ok m) :
    m.name = c.reference.typeName ∧ ∀ name, name ∈ m.imports ↔
      Model.Refers g c.ns c.value name ∧ name ≠ m.name ∧ Naming.Importable name := by
  obtain ⟨⟨key, text, named⟩, imports⟩ := Model.of_ofComponent success
  constructor
  · rw [named, Component.reference, text]
    rfl
  · intro name
    rw [imports, Naming.Importable]
    tauto

/-- No import of a client is missing and none is for nothing. The model of a component imports what
its declaration refers to, the model of a response what the responses refer to, and the interface
what the signature of some operation refers to; but for the own name of a model and names that can
not be imported. The model of a response is always imported. -/
theorem imports_what_is_referred_to {transformer : Option Transformer}
    {validator : Option Validator} {c : Client}
    (success : (generate g document transformer validator).result = .ok c) :
    ∃ g' document' h models operations,
      transformed g document transformer = .ok (g', document') ∧
      (Discriminator.propagate g' document').result = .ok h ∧
      c.models = models ++ operations.filterMap (·.responseModel) ∧
      List.Forall₂ (fun component m => m.name = component.reference.typeName ∧
          ∀ name, name ∈ m.imports ↔ Model.Refers h component.ns component.value name ∧
            name ≠ m.name ∧ Naming.Importable name)
        (Model.componentsOf h document') models ∧
      List.Forall₂ (fun slot o => Operation.CompiledFrom h slot o ∧
          ∀ m, o.responseModel = some m → m.name ∈ c.api.imports ∧
            ∀ name, name ∈ m.imports ↔ Operation.Returns h slot name ∧
              name ≠ m.name ∧ Naming.Importable name)
        (slotsOf h document') operations ∧
      ∀ name, name ∈ c.api.imports ↔ Naming.Importable name ∧
        ∃ e ∈ (slotsOf h document').zip operations, Operation.Refers h e.1 e.2 name := by
  obtain ⟨g', document', report, h, title, models, operations, start, -, -, propagated, made, rfl⟩ :=
    generate_eq_ok_iff.mp success
  have zipped := List.forall₂_iff_zip.mp made.each
  have paired : ∀ o ∈ operations, ∃ e ∈ (slotsOf h document').zip operations, e.2 = o := by
    intro o member
    rw [← List.map_snd_zip zipped.1.ge] at member
    exact List.mem_map.mp member
  have interface : ∀ name, name ∈ (apiOf title operations).imports ↔ Naming.Importable name ∧
      ∃ e ∈ (slotsOf h document').zip operations, Operation.Refers h e.1 e.2 name := by
    intro name
    rw [apiOf, Model.mem_neededImports_iff, List.mem_flatMap]
    constructor
    · rintro ⟨⟨o, member, needed⟩, named, -, plain⟩
      obtain ⟨e, listed, rfl⟩ := paired o member
      have compiled := zipped.2 listed
      exact ⟨⟨named, plain⟩, e, listed, (Operation.mem_imports_iff compiled named).mp needed⟩
    · rintro ⟨⟨named, plain⟩, e, listed, refers⟩
      have compiled := zipped.2 listed
      exact ⟨⟨e.2, (List.of_mem_zip listed).2,
        (Operation.mem_imports_iff compiled named).mpr refers⟩, named, nofun, plain⟩
  refine ⟨g', document', h, models, operations, start, propagated, rfl,
    (each_of_componentModels made.models).imp fun c m success => imports_of_ofComponent success,
    forall₂_imp_mem made.each fun slot _ o member compiled => ⟨compiled, fun m lifted => ?_⟩,
    interface⟩
  obtain ⟨parts, made⟩ := compiled.exists_parts
  obtain ⟨named, imports⟩ := made.of_responseModel lifted
  constructor
  · obtain ⟨e, listed, rfl⟩ := paired o member
    refine (interface m.name).mpr ⟨?_, e, listed, .model lifted rfl⟩
    rw [named]
    exact Reference.importable_of_ne_schemas nofun
  · intro name
    rw [imports, Naming.Importable]
    tauto

/-- A pet refers to its owner, to a pet and to a component that is called as a built-in type. -/
def petsOfOwners : Graph :=
  ⟨#[.mapping [(.text "openapi", .text "3.0.3"), (.text "components", .node 1),
       (.text "paths", .node 9)],
     .mapping [(.text "schemas", .node 2)],
     .mapping [(.text "Pet", .node 3), (.text "Owner", .node 8), (.text "Object", .node 8)],
     .mapping [(.text "properties", .node 4)],
     .mapping [(.text "owner", .node 5), (.text "parent", .node 6), (.text "toy", .node 7)],
     .mapping [(.text "$ref", .text "#/components/schemas/Owner")],
     .mapping [(.text "$ref", .text "#/components/schemas/Pet")],
     .mapping [(.text "$ref", .text "#/components/schemas/Object")],
     .mapping [(.text "type", .text "string")],
     .mapping [(.text "/pets", .node 10)],
     .mapping [(.text "get", .node 11)],
     .mapping [(.text "operationId", .text "listPets"), (.text "parameters", .node 12),
       (.text "responses", .node 14)],
     .list [.node 13],
     .mapping [(.text "name", .text "owner"), (.text "in", .text "query"), (.text "schema", .node 5)],
     .mapping [(.text "200", .node 15)],
     .mapping [(.text "content", .node 16)],
     .mapping [(.text "application/json", .node 17)],
     .mapping [(.text "schema", .node 6)]]⟩

theorem pets_import_their_owners :
    ∃ c pet, (generate petsOfOwners (.node 0) none none).result = .ok c ∧ pet ∈ c.models ∧
      pet.name = "Pet" ∧ pet.imports = ["Owner"] ∧ c.api.imports = ["Owner", "Pet"] ∧
      (∀ name, Model.Refers petsOfOwners .schemas (.node 3) name ∧ name ≠ "Pet" ∧
        Naming.Importable name ↔ name = "Owner") ∧
      ∃ slot ∈ slotsOf petsOfOwners (.node 0), ∃ o, Operation.Refers petsOfOwners slot o "Owner" := by
  have evaluated : ((generate petsOfOwners (.node 0) none none).result.toOption.map fun c =>
      (c.api.imports, c.models.map fun m => (m.name, m.imports))) =
      some (["Owner", "Pet"], [("Pet", ["Owner"]), ("Owner", []), ("Object", [])]) := by
    decide +kernel
  obtain ⟨c, success, same⟩ := Except.exists_of_map_toOption evaluated
  obtain ⟨interface, names⟩ := Prod.mk.inj same
  obtain ⟨g, document, h, models, operations, start, propagated, all, each, -, imports⟩ :=
    imports_what_is_referred_to success
  cases start
  have unchanged : (Discriminator.propagate petsOfOwners (.node 0)).result = .ok petsOfOwners := by
    decide +kernel
  cases unchanged.symm.trans propagated
  have stated : Model.componentsOf petsOfOwners (.node 0) = [⟨.schemas, .text "Pet", .node 3⟩,
      ⟨.schemas, .text "Owner", .node 8⟩, ⟨.schemas, .text "Object", .node 8⟩] := by
    decide +kernel
  rw [stated] at each
  cases each with
  | @cons _ pet _ others first _ =>
    rw [all, List.cons_append, List.map_cons] at names
    obtain ⟨named, needed⟩ := Prod.mk.inj (List.cons.inj names).1
    refine ⟨c, pet, success, all ▸ List.mem_cons_self, named, needed, interface, fun name => ?_, ?_⟩
    · have refers := first.2 name
      rw [named, needed, List.mem_singleton] at refers
      exact refers.symm
    · have owner : "Owner" ∈ c.api.imports := by
        rw [interface]
        decide
      obtain ⟨-, e, paired, refers⟩ := (imports "Owner").mp owner
      exact ⟨e.1, (List.of_mem_zip paired).1, e.2, refers⟩

/-- A box refers to a component that is called as a built-in type, and to one whose type has no
name. -/
def boxOfObjects : Graph :=
  ⟨#[.mapping [(.text "openapi", .text "3.0.3"), (.text "components", .node 1)],
     .mapping [(.text "schemas", .node 2)],
     .mapping [(.text "Object", .node 3), (.text "--", .node 3), (.text "Box", .node 4)],
     .mapping [(.text "type", .text "string")],
     .mapping [(.text "properties", .node 5)],
     .mapping [(.text "held", .node 6), (.text "label", .node 7)],
     .mapping [(.text "$ref", .text "#/components/schemas/Object")],
     .mapping [(.text "$ref", .text "#/components/schemas/--")]]⟩

/-- The box imports neither component, although both have models. -/
theorem box_does_not_import_its_object :
    ∃ c box, (generate boxOfObjects (.node 0) none none).result = .ok c ∧
      c.models.map (·.name) = ["Object", "", "Box"] ∧
      ⟨.schemas, .text "Box", .node 4⟩ ∈ Model.componentsOf boxOfObjects (.node 0) ∧
      box ∈ c.models ∧ box.name = "Box" ∧ box.imports = [] ∧
      Model.Refers boxOfObjects .schemas (.node 4) "Object" ∧
      Model.Refers boxOfObjects .schemas (.node 4) "" := by
  have resolves : Schema.resolve boxOfObjects (.node 4) "#" =
      .ok ⟨"\x7bheld?: Object; label?: \x7d", ["Object", ""], []⟩ := by
    decide +kernel
  have refers := Schema.mem_imports_iff resolves
  have evaluated : ((generate boxOfObjects (.node 0) none none).result.toOption.map fun c =>
      c.models.map fun m => (m.name, m.imports)) =
      some [("Object", []), ("", []), ("Box", [])] := by
    decide +kernel
  obtain ⟨c, success, models⟩ := Except.exists_of_map_toOption evaluated
  have last : ("Box", []) ∈ c.models.map fun m => (m.name, m.imports) := by
    rw [models]
    decide
  obtain ⟨box, member, same⟩ := List.mem_map.mp last
  obtain ⟨named, needed⟩ := Prod.mk.inj same
  refine ⟨c, box, success, ?_, by decide +kernel, member, named, needed, (refers _).mp (by decide),
    (refers _).mp (by decide)⟩
  have names := congrArg (List.map Prod.fst) models
  rwa [List.map_map] at names

end Client

end TypedClient
