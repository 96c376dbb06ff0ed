import Mathlib.Logic.Function.Basic
import TypedClient.Proofs.Discriminator.Confinement
import TypedClient.Proofs.Document.Address
import TypedClient.Proofs.Document.Copy

/-!
# Graphs with literals in place

A graph is settled for some literals if it is another one with each of them as the only value of a
mapping of that one. Restricting one more mapping settles one more literal, in the place of the one
that was there before. Where the mappings with a literal are properties of schemas, and the document
is unshared, every value that stands elsewhere looks the same.
-/
namespace TypedClient

theorem Entries.put_put {α : Type} (es : List (Scalar × α)) (key : Scalar) (v w : α) :
    put key v (put key w es) = put key v es := by
  induction es with
  | nil => simp [put, Scalar.same]
  | cons e es ih => by_cases here : e.1.same key = true <;> simp [put, here, ih]

namespace Graph

theorem getElem?_of_view_mapping {g : Graph} {id : NodeId} {es : Entries}
    (view : g.view (.node id) = .mapping id es) : g.nodes[id]? = some (.mapping es) := by
  simp only [Graph.view] at view
  split at view <;> cases view
  assumption

theorem view_of_getElem?_mapping {g : Graph} {id : NodeId} {es : Entries}
    (node : g.nodes[id]? = some (.mapping es)) : g.view (.node id) = .mapping id es := by
  simp only [Graph.view, node]

theorem fields_of_view {g : Graph} {v : Value} {id : NodeId} {es : Entries}
    (view : g.view v = .mapping id es) : g.fields v = es :=
  fields_of_entries? (by rw [entries?, view])

/-- The second graph is the first with literals as the only values of some mappings. Other nodes of
the first are the same. -/
structure Settled (g : Graph) (literals : NodeId → Option Scalar) (h : Graph) : Prop where
  size : g.nodes.size ≤ h.nodes.size
  kept : ∀ id : Nat, id < g.nodes.size → literals id = none → h.nodes[id]? = g.nodes[id]?
  written : ∀ (id : Nat) literal, literals id = some literal → ∃ fields, ∃ n : Nat,
    g.nodes[id]? = some (.mapping fields) ∧ g.nodes.size ≤ n ∧
      h.nodes[id]? = some (.mapping (Entries.put (.text "enum") (.node n) fields)) ∧
      h.nodes[n]? = some (.list [.scalar literal])

namespace Settled

variable {g h : Graph} {literals : NodeId → Option Scalar}

theorem refl (g : Graph) : Settled g (fun _ => none) g where
  size := Nat.le_refl _
  kept _ _ _ := rfl
  written _ _ settled := nomatch settled

/-- A mapping of the first graph is one of the second, with another value for `enum` at most. -/
theorem exists_mapping (settled : Settled g literals h) {id : Nat} {fields : Entries}
    (mapping : g.nodes[id]? = some (.mapping fields)) :
    ∃ fields', h.nodes[id]? = some (.mapping fields') ∧
      (fields' = fields ∨ ∃ v, fields' = Entries.put (.text "enum") v fields) := by
  cases here : literals id with
  | none =>
    have inside := (Array.getElem?_eq_some_iff.mp mapping).1
    exact ⟨fields, (settled.kept id inside here).trans mapping, .inl rfl⟩
  | some literal =>
    obtain ⟨fields', n, mapping', -, written, -⟩ := settled.written id literal here
    cases mapping.symm.trans mapping'
    exact ⟨_, written, .inr ⟨_, rfl⟩⟩

/-- A mapping with a literal enumerates that literal alone. -/
theorem view_enum (settled : Settled g literals h) {id : Nat} {literal : Scalar}
    (here : literals id = some literal) :
    ∃ n : Nat, h.view ((h.fields (.node id)).field "enum") = .list n [.scalar literal] := by
  obtain ⟨fields, n, -, -, written, list⟩ := settled.written id literal here
  refine ⟨n, ?_⟩
  rw [fields_of_view (view_of_getElem?_mapping written), Entries.field, Entries.lookup?_put_self,
    Option.getD_some, Graph.view, list]

/-- One more mapping is restricted. -/
theorem restrict (settled : Settled g literals h) {id : Nat} {fields : Entries}
    (mapping : g.nodes[id]? = some (.mapping fields)) (literal : Scalar) :
    Settled g (Function.update literals id (some literal))
      (Discriminator.restrict h id (h.fields (.node id)) literal) := by
  obtain ⟨fields', mapping', changed⟩ := settled.exists_mapping mapping
  have inside := (Array.getElem?_eq_some_iff.mp mapping).1
  have nodes := Discriminator.getElem?_restrict (view_of_getElem?_mapping mapping') literal
  have size := settled.size
  -- what an earlier restriction has written is written over
  have replaced : ∀ v : Value, Entries.put (.text "enum") v fields' =
      Entries.put (.text "enum") v fields := by
    intro v
    rcases changed with rfl | ⟨w, rfl⟩
    · rfl
    · exact Entries.put_put ..
  rw [fields_of_view (view_of_getElem?_mapping mapping')]
  constructor
  · simp only [Discriminator.restrict, Graph.add, Graph.set, Array.size_setIfInBounds,
      Array.size_push]
    omega
  · intro i old none
    have other : i ≠ id := by
      rintro rfl
      rw [Function.update_self] at none
      cases none
    rw [Function.update_of_ne other] at none
    rw [nodes, if_neg (Ne.symm other), if_neg (Nat.ne_of_lt (Nat.lt_of_lt_of_le old size))]
    exact settled.kept i old none
  · intro i literal' here
    by_cases same : i = id
    · subst same
      rw [Function.update_self] at here
      cases here
      refine ⟨fields, h.nodes.size, mapping, size, ?_, ?_⟩
      · rw [nodes, if_pos rfl, replaced]
      · rw [nodes, if_neg (Nat.ne_of_lt (Nat.lt_of_lt_of_le inside size)), if_pos rfl]
    · rw [Function.update_of_ne same] at here
      obtain ⟨fields'', n, mapping'', new, written, list⟩ := settled.written i literal' here
      have old := (Array.getElem?_eq_some_iff.mp mapping'').1
      have listed := (Array.getElem?_eq_some_iff.mp list).1
      refine ⟨fields'', n, mapping'', new, ?_, ?_⟩
      · rw [nodes, if_neg (Ne.symm same), if_neg (Nat.ne_of_lt (Nat.lt_of_lt_of_le old size)), written]
      · have apart : id ≠ n := Nat.ne_of_lt (Nat.lt_of_lt_of_le inside new)
        rw [nodes, if_neg apart, if_neg (Nat.ne_of_lt listed), list]

end Settled

/-! ### Literals at properties of schemas -/

/-- Where a property of a schema stands in a document. -/
def propertyAddress (schema property : Scalar) : List Scalar :=
  [.text "components", .text "schemas", schema, .text "properties", property]

/-- The node is a mapping that stands as a property of a schema. -/
structure Slot (g : Graph) (document : Value) (id : NodeId) : Prop where
  mapping : ∃ fields, g.nodes[id]? = some (.mapping fields)
  place : ∃ schema property, g.Addressed document (propertyAddress schema property) (.node id)

/-- The second graph is the first with literals at properties of schemas of the document. -/
def Settles (g : Graph) (document : Value) (h : Graph) : Prop :=
  ∃ literals, Settled g literals h ∧ ∀ id literal, literals id = some literal → g.Slot document id

section View

variable {g h : Graph} {v : Value} (same : h.view v = g.view v)

include same

theorem entries?_of_view_eq : h.entries? v = g.entries? v := by rw [entries?, entries?, same]

theorem truthy_of_view_eq : h.truthy v = g.truthy v := by rw [truthy, truthy, same]

theorem entries_of_view_eq : h.entries v = g.entries v := by
  rw [entries, entries, entries?_of_view_eq same]

theorem optionalEntries_of_view_eq : h.optionalEntries v = g.optionalEntries v := by
  rw [optionalEntries, optionalEntries, truthy_of_view_eq same, entries_of_view_eq same]

theorem comparable_of_view_eq : h.comparable v = g.comparable v := by
  rw [comparable, comparable, same]

end View

namespace Settles

variable {g h : Graph} {document : Value}

theorem refl (g : Graph) (document : Value) : Settles g document g :=
  ⟨_, .refl g, fun _ _ settled => nomatch settled⟩

theorem restrict (settles : Settles g document h) {id : NodeId} (slot : g.Slot document id)
    (literal : Scalar) :
    Settles g document (Discriminator.restrict h id (h.fields (.node id)) literal) := by
  obtain ⟨literals, settled, places⟩ := settles
  obtain ⟨fields, mapping⟩ := slot.mapping
  refine ⟨_, settled.restrict mapping literal, fun i literal' here => ?_⟩
  by_cases same : i = id
  · exact same ▸ slot
  · rw [Function.update_of_ne same] at here
    exact places i literal' here

theorem getElem?_eq (settles : Settles g document h) {id : Nat} (inside : id < g.nodes.size)
    (apart : ¬g.Slot document id) : h.nodes[id]? = g.nodes[id]? := by
  obtain ⟨literals, settled, places⟩ := settles
  cases here : literals id with
  | none => exact settled.kept id inside here
  | some literal => exact absurd (places id literal here) apart

/-- A value looks the same, or is a mapping that has another `enum` at most. -/
theorem view_cases (settles : Settles g document h) (whole : g.Whole document) {v : Value}
    (contains : g.Contains document v) :
    h.view v = g.view v ∨ ∃ id fields fields', g.view v = .mapping id fields ∧
      h.view v = .mapping id fields' ∧
        ∀ name, name ≠ "enum" → fields'.field name = fields.field name := by
  cases v with
  | scalar s => exact .inl rfl
  | node id =>
    obtain ⟨literals, settled, -⟩ := settles
    cases here : literals id with
    | none => exact .inl (view_eq_of_getElem? (settled.kept id (whole id contains) here))
    | some literal =>
      obtain ⟨fields, n, mapping, -, written, -⟩ := settled.written id literal here
      exact .inr ⟨id, fields, _, view_of_getElem?_mapping mapping,
        view_of_getElem?_mapping written, fun name other => Entries.field_put other _⟩

variable {address : List Scalar} {v : Value} (settles : Settles g document h)
  (unshared : g.Unshared document) (whole : g.Whole document)
  (addressed : g.Addressed document address v)

include settles unshared whole addressed

/-- What does not stand as a property of a schema looks the same. -/
theorem view_eq (elsewhere : ∀ schema property, address ≠ propertyAddress schema property) :
    h.view v = g.view v := by
  cases v with
  | scalar s => rfl
  | node id =>
    refine view_eq_of_getElem? (settles.getElem?_eq (whole id addressed.contains) fun slot => ?_)
    obtain ⟨schema, property, place⟩ := slot.place
    exact elsewhere schema property (unshared.address_eq addressed place)

theorem view_field_eq {name : String}
    (elsewhere : ∀ schema property, address ++ [.text name] ≠ propertyAddress schema property) :
    h.view ((g.fields v).field name) = g.view ((g.fields v).field name) := by
  rcases addressed.field name with null | addressed
  · rw [null]
    rfl
  · exact settles.view_eq unshared whole addressed elsewhere

/-- Where no property of a schema stands, no node has changed. -/
theorem getElem?_below (elsewhere : ∀ schema property, ¬address <+: propertyAddress schema property)
    {id : NodeId} (contains : g.Contains v (.node id)) : h.nodes[id]? = g.nodes[id]? := by
  refine settles.getElem?_eq (whole id (addressed.contains.trans contains)) fun slot => ?_
  obtain ⟨schema, property, place⟩ := slot.place
  obtain ⟨rest, below, -, same⟩ := unshared.exists_descend addressed contains place
  exact elsewhere schema property (same ▸ List.prefix_append address below)

/-- What stands below a property of a schema, or as deep elsewhere, has the same text. -/
theorem textOf_eq (deep : 5 < address.length) : h.textOf v = g.textOf v := by
  have nodes : ∀ id : Nat, g.Contains v (.node id) → h.nodes[id]? = g.nodes[id]? := fun id =>
    settles.getElem?_below unshared whole addressed fun schema property begins =>
      Nat.not_le_of_lt deep begins.length_le
  obtain ⟨t, unfolds⟩ := unshared.exists_unfolds whole addressed.contains
  exact (isCopy_of_nodes nodes).textOf ⟨rfl, .inr (.refl g v)⟩ unfolds

end Settles

end Graph

end TypedClient
