import TypedClient.Proofs.Reference.Mention
import TypedClient.Proofs.Schema.References

/-!
# Imports of schemas

What the type of a schema refers to is mentioned in the schema: each schema inside the form of
another one stands below it in the document.
-/
namespace TypedClient.Schema

variable {g : Graph} {v : Value}

theorem Form.exists_mem_of_member? {es : Entries} {required : List Scalar}
    {members : List (Member Value)} (named : es.mapM (Form.member? required) = some members) :
    ∀ m ∈ members, ∃ k, (k, m.type) ∈ es := by
  induction es generalizing members with
  | nil =>
    cases named
    simp
  | cons e es ih =>
    rw [List.mapM_cons, Option.bind_eq_bind, Option.bind_eq_some_iff] at named
    obtain ⟨first, head, named⟩ := named
    obtain ⟨rest, tail, named⟩ := Option.bind_eq_some_iff.mp named
    cases named
    intro m member
    rcases List.mem_cons.mp member with rfl | member
    · unfold Form.member? at head
      split at head <;> cases head
      exact ⟨e.1, List.mem_cons_self⟩
    · obtain ⟨k, member⟩ := ih tail m member
      exact ⟨k, List.mem_cons_of_mem _ member⟩

/-- What is inside a form stands below the mapping that is read. -/
theorem Form.covers_of_mem_inner {f : Form} (mapping : Form.ofMapping? g (g.fields v) = some f)
    {w : Value} (inside : w ∈ f.inner) : g.Covers v w := by
  rcases Form.ofMapping?_cases mapping with ⟨o, rfl, -⟩ | ⟨composed, rfl⟩ |
    ⟨c, first, rest, rfl, elements⟩ | ⟨properties, required, members, rfl, entries, named⟩ | rfl
  · cases inside
  · cases List.mem_singleton.mp inside
    exact .field "items"
  · exact .trans (.field c.key) (.element elements inside)
  · obtain ⟨m, member, rfl⟩ := List.mem_map.mp inside
    obtain ⟨k, member⟩ := Form.exists_mem_of_member? named m member
    rw [← Graph.fields_of_entries? entries] at member
    exact .trans (.field "properties") (.entry member)
  · cases List.mem_singleton.mp inside
    exact .field "additionalProperties"

/-- A schema mentions whatever its type refers to. -/
theorem Refers.mentions {name : String} (refers : Refers g v name) : g.MentionsType v name := by
  induction refers with
  | here stated parsed => exact ⟨_, .here stated parsed, rfl⟩
  | inside form member _ ih =>
    rcases Form.of?_cases form with ⟨-, -, rfl⟩ | ⟨_, _, _, -, -, -, rfl⟩ |
      ⟨es, entries, -, -, mapping⟩
    · cases member
    · cases member
    · rw [← Graph.fields_of_entries? entries] at mapping
      exact ih.of_covers (Form.covers_of_mem_inner mapping member)

end TypedClient.Schema
