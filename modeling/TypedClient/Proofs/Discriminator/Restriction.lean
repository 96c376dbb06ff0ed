import TypedClient.Proofs.Discriminator.Walk
import TypedClient.Proofs.Reference.Mention

/-!
# What discriminators leave as it is

Carrying out discriminators restricts schemas to literals. No reference is added to the document in
this way, no entry is taken from a mapping, and no field but `enum` gets another value. A single
restriction does none of this, and so none of the walks over mappings does.
-/
namespace TypedClient

namespace Entries

theorem mem_of_mem_put {es : Entries} {key k : Scalar} {v w : Value}
    (member : (k, w) ∈ put key v es) : (k, w) ∈ es ∨ w = v := by
  induction es with
  | nil =>
    cases List.mem_singleton.mp member
    exact .inr rfl
  | cons e es ih =>
    unfold put at member
    split at member
    · rcases List.mem_cons.mp member with same | member
      · cases same
        exact .inr rfl
      · exact .inl (List.mem_cons_of_mem _ member)
    · rcases List.mem_cons.mp member with same | member
      · exact .inl (List.mem_cons.mpr (.inl same))
      · exact (ih member).imp_left (List.mem_cons_of_mem _)

theorem field_put {es : Entries} {written name : String} (other : name ≠ written) (v : Value) :
    field (put (.text written) v es) name = field es name := by
  have differs : ∀ s : Scalar, s.same (.text written) = true → s.same (.text name) = false := by
    intro s same
    rw [Scalar.same_text_iff.mp same, Bool.eq_false_iff, ne_eq, Scalar.same_text_iff,
      Scalar.text.injEq]
    exact Ne.symm other
  unfold field lookup?
  congr 2
  induction es with
  | nil => simp [put, differs (.text written) (Scalar.same_text_iff.mpr rfl)]
  | cons e es ih =>
    unfold put
    by_cases here : e.1.same (.text written) = true
    · rw [if_pos here, List.find?_cons, List.find?_cons]
      simp only [differs _ here]
    · rw [if_neg here, List.find?_cons, List.find?_cons, ih]

theorem put_ne_nil (es : Entries) (key : Scalar) (v : Value) : put key v es ≠ [] := by
  cases es with
  | nil => simp [put]
  | cons e es =>
    unfold put
    split <;> simp

theorem keys_subset_put (es : Entries) (key : Scalar) (v : Value) :
    keys es ⊆ keys (put key v es) := by
  rw [keys_put]
  split
  · exact List.Subset.refl _
  · exact List.subset_append_left _ _

end Entries

namespace Graph

/-- The second graph mentions no more than the first, has all its entries, and has other values for
the field `enum` at most. -/
structure Restricts (g g' : Graph) : Prop where
  mentions : ∀ v r, g'.Mentions v r → g.Mentions v r
  keys : ∀ v, Entries.keys (g.fields v) ⊆ Entries.keys (g'.fields v)
  field : ∀ v name, name ≠ "enum" → (g'.fields v).field name = (g.fields v).field name

namespace Restricts

theorem refl (g : Graph) : Restricts g g :=
  ⟨fun _ _ mention => mention, fun _ => List.Subset.refl _, fun _ _ _ => rfl⟩

theorem trans {g g' g'' : Graph} (first : Restricts g g') (second : Restricts g' g'') :
    Restricts g g'' where
  mentions v r mention := first.mentions v r (second.mentions v r mention)
  keys v := List.Subset.trans (first.keys v) (second.keys v)
  field v name other := (second.field v name other).trans (first.field v name other)

variable {g g' : Graph} {document : Value} {r : Reference}

/-- What a document declares it still declares when its schemas are restricted. -/
theorem declares (restricts : Restricts g g') (declared : g.Declares document r) :
    g'.Declares document r := by
  have key : ∀ ns : Namespace, ns.key ≠ "enum" := by
    intro ns
    cases ns <;> decide
  unfold Declares components
  rw [restricts.field document "components" (by decide), restricts.field _ _ (key _)]
  exact restricts.keys _ declared

end Restricts

end Graph

namespace Discriminator

section Restrict

variable {g : Graph} {id : NodeId} {fields : Entries}
  (view : g.view (.node id) = .mapping id fields) (literal : Scalar)

include view

theorem fields_restrict (w : Value) :
    (w = .node id ∧ (restrict g id fields literal).fields w =
      Entries.put (.text "enum") (.node g.nodes.size) (g.fields w)) ∨
    (restrict g id fields literal).fields w = g.fields w := by
  unfold Graph.fields Graph.entries?
  rcases view_restrict view literal w with ⟨rfl, now⟩ | ⟨rfl, now⟩ | same
  · rw [now, view]
    exact .inl ⟨rfl, rfl⟩
  · rw [now, Graph.view_new]
    exact .inr rfl
  · rw [same]
    exact .inr rfl

/-- Nothing becomes empty. -/
theorem truthy_restrict {w : Value} (truthy : g.truthy w = true) :
    (restrict g id fields literal).truthy w = true := by
  unfold Graph.truthy at truthy ⊢
  rcases view_restrict view literal w with ⟨-, now⟩ | ⟨-, now⟩ | same
  · simp [now, Entries.put_ne_nil]
  · simp [now]
  · rwa [same]

/-- An element of a restricted graph was one before, or is a scalar. -/
theorem elements?_restrict {w e : Value} {vs : List Value}
    (elements : (restrict g id fields literal).elements? w = some vs) (member : e ∈ vs) :
    g.elements? w = some vs ∨ ∃ s, e = .scalar s := by
  unfold Graph.elements? at elements ⊢
  rcases view_restrict view literal w with ⟨rfl, now⟩ | ⟨rfl, now⟩ | same
  · rw [now] at elements
    obtain rfl := Option.some.inj elements
    obtain ⟨entry, -, rfl⟩ := List.mem_map.mp member
    exact .inr ⟨entry.1, rfl⟩
  · rw [now] at elements
    obtain rfl := Option.some.inj elements
    exact .inr ⟨literal, List.mem_singleton.mp member⟩
  · rw [same] at elements
    exact .inl elements

theorem mentions_of_restrict {w : Value} {r : Reference}
    (mention : (restrict g id fields literal).Mentions w r) : g.Mentions w r := by
  induction mention with
  | @here v t r text parsed =>
    refine .here ?_ parsed
    rcases fields_restrict view literal v with ⟨-, same⟩ | same
    · rwa [same, Entries.field_put (by decide)] at text
    · rwa [same] at text
  | @entry v w k r member inside ih =>
    rcases fields_restrict view literal v with ⟨-, same⟩ | same
    · rw [same] at member
      rcases Entries.mem_of_mem_put member with member | rfl
      · exact .entry member ih
      · -- the list of the literal was not there before
        exact absurd ih (Graph.not_mentions_of_view_scalar g.view_new r)
    · rw [same] at member
      exact .entry member ih
  | element elements member inside ih =>
    rcases elements?_restrict view literal elements member with elements | ⟨s, rfl⟩
    · exact .element elements member ih
    · exact absurd ih (Graph.not_mentions_of_view_scalar rfl _)

theorem restricts_restrict : Graph.Restricts g (restrict g id fields literal) where
  mentions w r mention := mentions_of_restrict view literal mention
  keys w := by
    rcases fields_restrict view literal w with ⟨-, same⟩ | same
    · rw [same]
      exact Entries.keys_subset_put _ _ _
    · rw [same]
      exact List.Subset.refl _
  field w name other := by
    rcases fields_restrict view literal w with ⟨-, same⟩ | same
    · rw [same]
      exact Entries.field_put other _
    · rw [same]

end Restrict

/-- Carrying out the discriminators of a document adds no reference to it and takes no component
from it. -/
theorem restricts_of_propagate {g g' : Graph} {document : Value}
    (success : (propagate g document).result = .ok g') : Graph.Restricts g g' :=
  related_of_propagate (fun _ _ => {
    refl := .refl
    trans := fun _ _ _ => .trans
    restrict := fun _ _ _ literal view _ => restricts_restrict view literal }) success

theorem truthy_of_propagate {g g' : Graph} {document : Value}
    (success : (propagate g document).result = .ok g') :
    ∀ v, g.truthy v = true → g'.truthy v = true :=
  related_of_propagate (r := fun g g' => ∀ v, g.truthy v = true → g'.truthy v = true) (fun _ _ => {
    refl := fun _ _ => id
    trans := fun _ _ _ first second v truthy => second v (first v truthy)
    restrict := fun _ _ _ literal view _ _ => truthy_restrict view literal }) success

end Discriminator

end TypedClient
