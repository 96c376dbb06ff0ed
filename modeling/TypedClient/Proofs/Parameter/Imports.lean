import TypedClient.Proofs.Parameter.References
import TypedClient.Proofs.Schema.Imports

/-!
# Imports of parameters

A declaration stands within a document if its fields are those of a value in the document, which a
dereferenced declaration finds among the components. A declaration within a document refers only to
what the document mentions.
-/
namespace TypedClient

variable {g : Graph} {root : Value}

namespace Declaration

/-- The fields of the declaration stand in the document. -/
def Within (g : Graph) (root : Value) (d : Declaration) : Prop :=
  ∃ v, g.Covers root v ∧ g.fields v = d.fields

section Reading

variable {components v : Value} {p : String}

theorem covers_of_component? {name : String} {found : Value}
    (success : component? g components name = .ok (some found)) : g.Covers components found := by
  obtain ⟨sections, entries, success⟩ := Except.bind_eq_ok success
  obtain ⟨parameters, entries', success⟩ := Except.bind_eq_ok success
  rw [← Graph.fields_of_optionalEntries entries] at entries'
  rw [← Graph.fields_of_optionalEntries entries'] at success
  obtain ⟨-, same⟩ := Option.ite_none_right_eq_some.mp (Except.ok.inj success)
  rw [← Option.some.inj same]
  exact .trans (.field Namespace.parameters.key) (.field name)

theorem covers_of_dereference {w : Value} (inside : g.Covers root components)
    (stated : g.Covers root v) (success : dereference g components p v = .ok w) :
    g.Covers root w := by
  unfold dereference at success
  split at success
  · cases success
    exact stated
  · obtain ⟨es, -, success⟩ := Except.bind_eq_ok success
    obtain ⟨t, -, success⟩ := Except.bind_eq_ok success
    obtain ⟨r, -, success⟩ := Except.bind_eq_ok success
    split at success
    · cases success
    · obtain ⟨found?, found, success⟩ := Except.bind_eq_ok success
      split at success
      · cases success
        exact inside.trans (covers_of_component? found)
      · cases success

theorem within_of_ofValue {d : Declaration} (inside : g.Covers root components)
    (stated : g.Covers root v) (success : ofValue g components p v = .ok d) : d.Within g root := by
  obtain ⟨w, found, success⟩ := Except.bind_eq_ok success
  obtain ⟨es, entries, success⟩ := Except.bind_eq_ok success
  obtain ⟨name, -, success⟩ := Except.bind_eq_ok success
  obtain ⟨place, -, success⟩ := Except.bind_eq_ok success
  cases success
  exact ⟨w, covers_of_dereference inside stated found, Graph.fields_of_entries entries⟩

end Reading

theorem within_of_merge {components : Value} {p : String} {shared own : Result (List Value)}
    {ds : List Declaration} (inside : g.Covers root components)
    (ofShared : ∀ vs, shared = .ok vs → ∀ v ∈ vs, g.Covers root v)
    (ofOwn : ∀ vs, own = .ok vs → ∀ v ∈ vs, g.Covers root v)
    (success : merge g components p shared own = .ok ds) : ∀ d ∈ ds, d.Within g root := by
  intro d member
  obtain ⟨q, v, ⟨vs, stated, listed⟩ | ⟨vs, stated, listed⟩, success⟩ :=
    exists_ofValue_of_merge success d member
  · exact within_of_ofValue inside (ofShared vs stated v listed) success
  · exact within_of_ofValue inside (ofOwn vs stated v listed) success

theorem Within.mentions {d : Declaration} (within : d.Within g root) {name : String}
    (refers : Schema.Refers g (d.fields.field "schema") name) : g.MentionsType root name := by
  obtain ⟨v, covers, fields⟩ := within
  rw [← fields] at refers
  exact refers.mentions.of_covers (covers.trans (.field "schema"))

end Declaration

end TypedClient
