import TypedClient.Proofs.Discriminator.Restriction

/-!
# Where discriminators write

The restrictions of a document write to nodes among its components and to new ones, and to the field
`enum` only. So a node that stands elsewhere is left as it is, and everywhere the entries of other
keys stay, in their order.
-/
namespace TypedClient

theorem Entries.filter_put {es : Entries} {s : Scalar} {p : Scalar → Bool} (written : p s = false)
    (only : ∀ k : Scalar, k.same s = true → p k = false) (v : Value) :
    (put s v es).filter (fun e => p e.1) = es.filter fun e => p e.1 := by
  induction es with
  | nil => simp [put, written]
  | cons e es ih =>
    unfold put
    by_cases here : e.1.same s = true
    · simp [here, only _ here]
    · simp [here, List.filter_cons, ih]

namespace Graph

/-- The second graph comes from the first by writing into nodes that the value contains: nodes are
added, no other node of the first is in the value, and those outside are the same. -/
structure Confined (root : Value) (g h : Graph) : Prop where
  size : g.nodes.size ≤ h.nodes.size
  within : ∀ id : Nat, h.Contains root (.node id) → g.Contains root (.node id) ∨ g.nodes.size ≤ id
  outside : ∀ id : Nat, id < g.nodes.size → ¬g.Contains root (.node id) →
    h.nodes[id]? = g.nodes[id]?

/-- The second graph has the mappings of the first, with the same entries but for the key `enum`,
and whatever is new in them is no mapping. -/
structure EnumOnly (g h : Graph) : Prop where
  isMapping : ∀ v, h.isMapping v = g.isMapping v
  others : ∀ v, (h.fields v).filter (fun e => decide (e.1 ≠ .text "enum")) =
    (g.fields v).filter fun e => decide (e.1 ≠ .text "enum")
  stated : ∀ v, ∀ e ∈ h.fields v, e ∈ g.fields v ∨ h.isMapping e.2 = false

namespace Confined

theorem refl (root : Value) (g : Graph) : Confined root g g :=
  ⟨Nat.le_refl _, fun _ => .inl, fun _ _ _ => rfl⟩

theorem trans {root : Value} {g h k : Graph} (first : Confined root g h)
    (second : Confined root h k) : Confined root g k where
  size := Nat.le_trans first.size second.size
  within id contains := by
    rcases second.within id contains with contains | new
    · exact first.within id contains
    · exact .inr (Nat.le_trans first.size new)
  outside id old apart := by
    have still : ¬h.Contains root (.node id) := fun contains => by
      rcases first.within id contains with contains | new
      · exact apart contains
      · omega
    rw [second.outside id (Nat.lt_of_lt_of_le old first.size) still, first.outside id old apart]

end Confined

namespace EnumOnly

theorem refl (g : Graph) : EnumOnly g g := ⟨fun _ => rfl, fun _ => rfl, fun _ _ => .inl⟩

theorem trans {g h k : Graph} (first : EnumOnly g h) (second : EnumOnly h k) : EnumOnly g k where
  isMapping v := (second.isMapping v).trans (first.isMapping v)
  others v := (second.others v).trans (first.others v)
  stated v e member := by
    rcases second.stated v e member with member | new
    · exact (first.stated v e member).imp_right (second.isMapping e.2).trans
    · exact .inr new

end EnumOnly

theorem view_eq_of_getElem? {g h : Graph} {id : NodeId} (same : h.nodes[id]? = g.nodes[id]?) :
    h.view (.node id) = g.view (.node id) := by rw [view, view, same]

end Graph

namespace Discriminator

section Restrict

variable {g : Graph} {id : NodeId} {fields : Entries}
  (view : g.view (.node id) = .mapping id fields) (literal : Scalar)

include view

theorem mem_parts_of_restrict {w u : Value} (part : u ∈ (restrict g id fields literal).parts w) :
    u ∈ g.parts w ∨ u = .node g.nodes.size ∨ ∃ s, u = .scalar s := by
  cases w with
  | scalar s => cases part
  | node i =>
    rw [Graph.parts, getElem?_restrict view literal i] at part
    split at part
    · next target =>
      subst target
      obtain ⟨e, member, rfl⟩ := List.mem_map.mp part
      rcases Entries.mem_of_mem_put member with member | new
      · have entries : g.entries? (.node id) = some fields := by rw [Graph.entries?, view]
        rw [Graph.parts_of_entries? entries]
        exact .inl (List.mem_map_of_mem member)
      · exact .inr (.inl new)
    · split at part
      · exact .inr (.inr ⟨literal, List.mem_singleton.mp part⟩)
      · exact .inl part

theorem contains_of_restrict {root u : Value}
    (contains : (restrict g id fields literal).Contains root u) :
    g.Contains root u ∨ u = .node g.nodes.size ∨ ∃ s, u = .scalar s := by
  induction contains using Relation.ReflTransGen.head_induction_on with
  | refl => exact .inl (.refl g root)
  | head part _ ih =>
    rcases mem_parts_of_restrict view literal part with part | new
    · rcases ih with contains | rfl | ⟨s, rfl⟩
      · exact .inl (contains.trans (.of_part part))
      · simp [Graph.parts] at part
      · cases part
    · exact .inr new

theorem confined_restrict {root : Value} (inside : g.Contains root (.node id)) :
    Graph.Confined root g (restrict g id fields literal) where
  size := by simp [restrict, Graph.add, Graph.set]
  within i contains := by
    rcases contains_of_restrict view literal contains with contains | new | ⟨s, scalar⟩
    · exact .inl contains
    · cases new
      exact .inr (Nat.le_refl _)
    · cases scalar
  outside i old apart := by
    have other : id ≠ i := fun same => apart (same ▸ inside)
    rw [getElem?_restrict view literal i, if_neg other, if_neg (Nat.ne_of_lt old)]

theorem enumOnly_restrict : Graph.EnumOnly g (restrict g id fields literal) where
  isMapping w := by
    unfold Graph.isMapping Graph.entries?
    rcases view_restrict view literal w with ⟨rfl, now⟩ | ⟨rfl, now⟩ | same
    · rw [now, view]
      rfl
    · rw [now, Graph.view_new]
    · rw [same]
  others w := by
    rcases fields_restrict view literal w with ⟨-, same⟩ | same
    · rw [same]
      refine Entries.filter_put (p := fun k => decide (k ≠ .text "enum")) (by decide)
        (fun k same => ?_) _
      rw [Scalar.same_text_iff.mp same]
      decide
    · rw [same]
  stated w e member := by
    rcases fields_restrict view literal w with ⟨-, same⟩ | same
    · rw [same] at member
      refine (Entries.mem_of_mem_put member).imp_right fun new => ?_
      rw [new, Graph.isMapping, Graph.entries?]
      rcases view_restrict view literal (.node g.nodes.size) with ⟨same, -⟩ | ⟨-, now⟩ | same
      · cases same
        rw [Graph.view_new] at view
        cases view
      · rw [now]
        rfl
      · rw [same, Graph.view_new]
        rfl
    · rw [same] at member
      exact .inl member

end Restrict

variable {g h : Graph} {document : Value}

theorem enumOnly_of_propagate (success : (propagate g document).result = .ok h) :
    Graph.EnumOnly g h :=
  related_of_propagate (fun _ _ => {
    refl := .refl
    trans := fun _ _ _ => .trans
    restrict := fun _ _ _ literal view _ => enumOnly_restrict view literal }) success

/-- The components of a document contain its schemas. -/
theorem contains_components {root : Value} (located : schemas g document = .ok root) {id : NodeId}
    (inside : g.Contains root (.node id)) :
    g.Contains ((g.fields document).field "components") (.node id) := by
  obtain ⟨fields, entries, located⟩ := Except.bind_eq_ok located
  obtain ⟨components, listed, located⟩ := Except.bind_eq_ok located
  cases located
  rw [← Graph.fields_of_entries entries] at listed
  unfold Graph.optionalEntries at listed
  split at listed
  · rcases Graph.field_mem_parts (Graph.entries_eq_ok listed) "schemas" with null | part
    · rw [null] at inside
      exact absurd inside (Graph.not_contains_scalar _ _)
    · exact .trans (.of_part part) inside
  · cases listed
    exact absurd inside (Graph.not_contains_scalar _ _)

/-- A node of the document that is not among the components is as it was. -/
theorem getElem?_of_propagate (success : (propagate g document).result = .ok h) {id : Nat}
    (old : id < g.nodes.size)
    (apart : ¬g.Contains ((g.fields document).field "components") (.node id)) :
    h.nodes[id]? = g.nodes[id]? := by
  cases located : schemas g document with
  | error s =>
    unfold propagate at success
    rw [located] at success
    cases success
  | ok root =>
    have confined : Graph.Confined root g h :=
      related_of_propagate (fun root' located' => by
        cases located.symm.trans located'
        exact {
          refl := .refl root
          trans := fun _ _ _ => .trans
          restrict := fun _ _ _ literal view => confined_restrict view literal }) success
    exact confined.outside id old fun inside => apart (contains_components located inside)

end Discriminator

end TypedClient
