import TypedClient.Proofs.Model.References
import TypedClient.Proofs.Schema.Imports

/-!
# Imports of models

The model of a component imports only what the component mentions, and has the name that references
to the component are written as. So every reference that the document declares is the name of a
model.
-/
namespace TypedClient

theorem Payload.Refers.mentions {g : Graph} {item : Value} {name : String}
    (refers : Payload.Refers g item name) : g.MentionsType item name := by
  cases refers with
  | reference stated parsed => exact ⟨_, .here stated parsed, rfl⟩
  | @content m _ _ _ preferred refers =>
    obtain ⟨_, -, same⟩ := List.mem_map.mp (List.mem_of_find?_eq_some preferred)
    cases same
    exact refers.mentions.of_covers
      (.trans (.field "content") (.trans (.field m.name) (.field "schema")))

namespace Model

theorem mem_of_mem_neededImports {exclude : Option String} {names : List String} {name : String}
    (needed : name ∈ neededImports exclude names) : name ∈ names :=
  (mem_neededImports_iff.mp needed).1

theorem Refers.mentions {g : Graph} {ns : Namespace} {v : Value} {name : String}
    (refers : Refers g ns v name) : g.MentionsType v name := by
  unfold Refers at refers
  cases ns with
  | schemas => exact Schema.Refers.mentions refers
  | responses | requestBodies => exact Payload.Refers.mentions refers
  | parameters =>
    simp only at refers
    split at refers
    · exact refers.mentions
    · exact refers.mentions.of_covers (.field "schema")

variable {g : Graph} {document : Value} {models : List Model}

/-- Every component that the document declares has a model, and a model imports only what the
document mentions. -/
theorem of_ofComponents
    (success : ofComponents g (g.fields ((g.fields document).field "components")) = .ok models) :
    (∀ r, g.Declares document r → ∃ m ∈ models, m.name = r.typeName) ∧
      ∀ m ∈ models, ∀ name ∈ m.imports, g.MentionsType document name := by
  have each := each_of_ofComponents success
  constructor
  · intro r declared
    have looked : r.namespace_ ∈ sectionOrder := by cases r.namespace_ <;> decide
    obtain ⟨e, listed, key⟩ := List.mem_map.mp declared
    have stated : (⟨r.namespace_, e.1, e.2⟩ : Component) ∈ componentsOf g document :=
      List.mem_flatMap.mpr ⟨_, looked, List.mem_map.mpr ⟨e, listed, rfl⟩⟩
    obtain ⟨m, member, model⟩ := exists_right_of_forall₂ each stated
    obtain ⟨⟨name, text, named⟩, -⟩ := of_ofComponent model
    cases key.symm.trans text
    exact ⟨m, member, named⟩
  · intro m member name needed
    obtain ⟨c, stated, model⟩ := exists_right_of_forall₂ each.flip member
    obtain ⟨ns, -, listed⟩ := List.mem_flatMap.mp stated
    obtain ⟨e, declared, rfl⟩ := List.mem_map.mp listed
    have mention := (((of_ofComponent model).2 name).mp needed).1.mentions
    exact mention.of_covers (.trans (.field "components") (.trans (.field ns.key) (.entry declared)))

end Model

end TypedClient
