import TypedClient.Discriminator
import TypedClient.Proofs.Document.Part
import TypedClient.Proofs.Failure.Success

/-!
# What discriminators write

Carrying out discriminators is a run of restrictions, each of a mapping that stands among the schemas
of the document at that time. So a relation between graphs that holds before and after each of these
restrictions, and of one graph after another, holds of the whole run.
-/
namespace TypedClient

namespace Graph

/-- There is nothing yet where the next node will be. -/
theorem view_new (g : Graph) : g.view (.node g.nodes.size) = .scalar .null := by simp [view]

/-- The value of a key is a part of its mapping, if the mapping has the key. -/
theorem lookup?_mem_parts {g : Graph} {v w : Value} {es : Entries} (entries : g.entries? v = some es)
    {key : Scalar} (found : Entries.lookup? es key = some w) : w ∈ g.parts v := by
  obtain ⟨e, here, rfl⟩ := Option.map_eq_some_iff.mp found
  rw [parts_of_entries? entries]
  exact List.mem_map_of_mem (List.mem_of_find?_eq_some here)

/-- What is asked as a field and has entries is contained in its mapping. -/
theorem contains_field {g : Graph} {v : Value} {es fields : Entries} {name : String}
    (entries : g.entries? v = some es) (inner : g.entries? (es.field name) = some fields) :
    g.Contains v (es.field name) := by
  rcases field_mem_parts entries name with null | part
  · rw [null] at inner
    cases inner
  · exact .of_part part

theorem contains_of_mem_fields {g : Graph} {v w : Value} {key : Scalar}
    (member : (key, w) ∈ g.fields v) : g.Contains v w := by
  cases entries : g.entries? v with
  | none =>
    rw [fields_of_other entries] at member
    cases member
  | some es =>
    rw [fields_of_entries? entries] at member
    refine .of_part ?_
    rw [parts_of_entries? entries]
    exact List.mem_map_of_mem member

/-- A value contains its fields, except for those that it does not have. -/
theorem contains_field_fields (g : Graph) (v : Value) (name : String) :
    (g.fields v).field name = .null ∨ g.Contains v ((g.fields v).field name) :=
  (exists_index_field (g.fields v) name).imp_right fun ⟨_, here⟩ =>
    contains_of_mem_fields (List.mem_of_getElem? here)

end Graph

namespace Discriminator

section Restrict

variable {g : Graph} {id : NodeId} {fields : Entries}
  (view : g.view (.node id) = .mapping id fields) (literal : Scalar)

include view

theorem getElem?_restrict (i : NodeId) : (restrict g id fields literal).nodes[i]? =
    if id = i then some (.mapping (Entries.put (.text "enum") (.node g.nodes.size) fields))
    else if i = g.nodes.size then some (.list [.scalar literal]) else g.nodes[i]? := by
  have inside : id < g.nodes.size := Graph.lt_size_of_view_mapping view
  simp only [restrict, Graph.add, Graph.set, Array.getElem?_setIfInBounds, Array.size_push,
    Array.getElem?_push, Nat.lt_succ_of_lt inside, if_true]

/-- Restricting changes one mapping and makes one list; all other nodes stay as they are. -/
theorem view_restrict (w : Value) :
    (w = .node id ∧ (restrict g id fields literal).view w =
      .mapping id (Entries.put (.text "enum") (.node g.nodes.size) fields)) ∨
    (w = .node g.nodes.size ∧ (restrict g id fields literal).view w =
      .list g.nodes.size [.scalar literal]) ∨
    (restrict g id fields literal).view w = g.view w := by
  cases w with
  | scalar s => exact .inr (.inr rfl)
  | node i =>
    have nodes := getElem?_restrict view literal i
    by_cases target : id = i
    · subst target
      rw [if_pos rfl] at nodes
      exact .inl ⟨rfl, by simp only [Graph.view, nodes]⟩
    · rw [if_neg target] at nodes
      by_cases new : i = g.nodes.size
      · subst new
        rw [if_pos rfl] at nodes
        exact .inr (.inl ⟨rfl, by simp only [Graph.view, nodes]⟩)
      · rw [if_neg new] at nodes
        exact .inr (.inr (by simp only [Graph.view, nodes]))

end Restrict

/-- A relation that chains, and that holds before and after a restriction of a mapping in the
value. -/
structure Chains (root : Value) (r : Graph → Graph → Prop) : Prop where
  refl : ∀ g, r g g
  trans : ∀ g h k, r g h → r h k → r g k
  restrict : ∀ g id fields literal, g.view (.node id) = .mapping id fields →
    g.Contains root (.node id) → r g (restrict g id fields literal)

namespace Chains

variable {root : Value} {r : Graph → Graph → Prop} (chains : Chains root r) {g g' : Graph}

include chains

theorem of_restrictProperty {schema : Entries} {property v : Value} {literal : Scalar}
    (entries : g.entries? v = some schema) (inside : g.Contains root v)
    (success : restrictProperty g schema property literal = .ok g') : r g g' := by
  obtain ⟨properties, listed, success⟩ := Except.bind_eq_ok success
  obtain ⟨name, -, success⟩ := Except.bind_eq_ok success
  split at success
  · next id fields view =>
    split at success
    · cases success
      exact chains.refl g
    · obtain rfl := Except.ok.inj success
      cases found : Entries.lookup? properties name with
      | none =>
        rw [found] at view
        cases view
      | some w =>
        rw [found, Option.getD_some] at view
        obtain rfl := Graph.eq_of_view_mapping view
        unfold Graph.optionalEntries at listed
        split at listed
        · have listed := Graph.entries_eq_ok listed
          have member := Graph.lookup?_mem_parts listed found
          exact chains.restrict g id fields literal view
            (inside.trans ((Graph.contains_field entries listed).trans (.of_part member)))
        · cases listed
          cases found
  · cases success
    exact chains.refl g

theorem of_andThen {o : Outcome} {next : Graph → Outcome}
    (first : ∀ h, o.result = .ok h → r g h)
    (second : ∀ h, (next h).result = .ok g' → r h g')
    (success : (o.andThen next).result = .ok g') : r g g' := by
  unfold Outcome.andThen at success
  split at success
  · cases success
  · next h reached => exact chains.trans g h g' (first h reached) (second h success)

/-- What holds of each visit of a walk holds of the walk. -/
theorem of_walk {v : Value} {size : Nat} {visit : Graph → Scalar × Value → Outcome}
    (step : ∀ h h' e, (visit h e).result = .ok h' → r h h') {indices : List Nat}
    (success : (walk v size visit indices g).result = .ok g') : r g g' := by
  induction indices generalizing g with
  | nil =>
    unfold walk at success
    split at success
    · cases success
    · simp only at success
      split at success <;> cases success
      exact chains.refl _
  | cons index rest ih =>
    unfold walk at success
    split at success
    · cases success
    · next e _ =>
      exact chains.of_andThen (fun h reached => step g h e reached)
        (fun h following => ih following) success

theorem of_walkEntries {v : Value} {visit : Graph → Scalar × Value → Outcome}
    (step : ∀ h h' e, (visit h e).result = .ok h' → r h h')
    (success : (walkEntries v visit g).result = .ok g') : r g g' := by
  unfold walkEntries at success
  split at success
  · cases success
  · exact chains.of_walk step success

theorem of_assign {property : Value} {pointer : String} {entry : Scalar × Value}
    (success : (assign root property pointer g entry).result = .ok g') : r g g' := by
  unfold assign at success
  simp only at success
  split at success
  · next h warnings step =>
    cases success
    obtain ⟨name, -, step⟩ := Except.bind_eq_ok step
    obtain ⟨known, listed, step⟩ := Except.bind_eq_ok step
    split at step
    · cases step
      exact chains.refl g
    · next schema entries =>
      obtain ⟨h, restricted, step⟩ := Except.bind_eq_ok step
      cases step
      have inside := Graph.contains_field (Graph.entries_eq_ok listed) entries
      exact chains.of_restrictProperty entries inside restricted
  · cases success

theorem of_assignAll {entry : Scalar × Value}
    (success : (assignAll root g entry).result = .ok g') : r g g' := by
  unfold assignAll at success
  split at success
  · cases success
    exact chains.refl g
  · split at success
    · cases success
      exact chains.refl g
    · simp only at success
      split at success
      · cases success
        exact chains.refl g
      · split at success
        · cases success
        · exact chains.of_walkEntries (fun _ _ _ => chains.of_assign) success

end Chains

/-- What holds of the restrictions among the schemas holds of carrying out all discriminators. -/
theorem related_of_propagate {g g' : Graph} {document : Value} {r : Graph → Graph → Prop}
    (chains : ∀ root, schemas g document = .ok root → Chains root r)
    (success : (propagate g document).result = .ok g') : r g g' := by
  unfold propagate at success
  split at success
  · cases success
  · next root located =>
    have chains := chains root located
    split at success
    · cases success
      exact chains.refl g
    · exact chains.of_walkEntries (fun _ _ _ => chains.of_assignAll) success

end Discriminator

end TypedClient
