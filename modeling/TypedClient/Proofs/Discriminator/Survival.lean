import TypedClient.Proofs.Discriminator.Record

/-!
# Literals that survive

Literals for one property do not add up: each of them takes the place of the one before. So a property
has the literal that is assigned to it last, and a literal survives only where the last one is the same.
-/
namespace TypedClient

theorem List.exists_last {α : Type} {p : α → Prop} {l : List α} (some : ∃ a ∈ l, p a) :
    ∃ before a after, l = before ++ a :: after ∧ p a ∧ ∀ b ∈ after, ¬p b := by
  induction l with
  | nil => simp at some
  | cons a l ih =>
    by_cases later : ∃ b ∈ l, p b
    · obtain ⟨before, b, after, rfl, holds, none⟩ := ih later
      exact ⟨a :: before, b, after, rfl, holds, none⟩
    · refine ⟨[], a, l, rfl, ?_, fun b member holds => later ⟨b, member, holds⟩⟩
      obtain ⟨b, member, holds⟩ := some
      rcases List.mem_cons.mp member with rfl | member
      · exact holds
      · exact absurd ⟨b, member, holds⟩ later

namespace Discriminator

variable {g h : Graph} {document : Value}

/-- The values that a schema node is restricted to. -/
def enumerated (h : Graph) (id : NodeId) : Option (List Value) :=
  h.elements? ((h.fields (.node id)).field "enum")

theorem enumerated_of_settled {literals : NodeId → Option Scalar} (settled : g.Settled literals h)
    {id : NodeId} {literal : Scalar} (here : literals id = some literal) :
    enumerated h id = some [.scalar literal] := by
  obtain ⟨n, view⟩ := settled.view_enum here
  exact Schema.elements?_of_view_list view

/-- What is carried out leaves every inline property where it is. -/
theorem property?_of_settles (unshared : g.Unshared document) (whole : g.Whole document)
    (settles : g.Settles document h) (name : String) (s : Scalar) :
    property? h document name s = property? g document name s := by
  simp only [property?, settles.components_eq unshared whole]
  rcases addressed_schema g document name with null | place
  · rw [null]
    rfl
  · have properties := settles.properties_eq unshared whole place
    rw [Schema.properties, Schema.properties] at properties
    rw [properties]
    exact inline?_of_settles unshared whole settles place

/-- A pair of a mapping is assigned to an inline property of a schema. Then the property is still there
in the end, and its only value is the literal of the last pair that is for it, in the order of the
schemas and then of their mappings. So the literal of a pair is lost unless that of the last one is the
same. -/
theorem last_literal_survives (unshared : g.Unshared document) (whole : g.Whole document)
    (success : (propagate g document).result = .ok h) {a : Assignment}
    (stated : a ∈ assignments g document) {name : String} {s : Scalar} {id : NodeId}
    (targets : a.Targets name) (names : a.property = .scalar s)
    (inline : property? g document name s = some id) :
    ∃ before l after, assignments g document = before ++ l :: after ∧
      l.Targets name ∧ l.Names s ∧ (∀ b ∈ after, b.Targets name → ¬b.Names s) ∧
      property? h document name s = some id ∧ enumerated h id = some [.scalar l.literal] ∧
      ((∃ vs, enumerated h id = some vs ∧ .scalar a.literal ∈ vs) ↔ a.literal = l.literal) := by
  have own : a.Names s := ⟨s, names, by simp [Scalar.same]⟩
  obtain ⟨before, l, after, split, ⟨targets', names'⟩, later⟩ :=
    List.exists_last (p := fun b : Assignment => b.Targets name ∧ b.Names s) ⟨a, stated, targets, own⟩
  have last : lastLiteral ((assignments g document).filterMap (write? g document)) id =
      some l.literal := by
    rw [split]
    refine lastLiteral_eq_some (write?_of_property? inline targets' names') fun b member w written same => ?_
    obtain ⟨-, name', s', targets'', stated', there⟩ := write?_eq_some written
    obtain ⟨rfl, same'⟩ := property?_unique unshared (same ▸ there) inline
    exact later b member ⟨targets'', s', stated', same'⟩
  have enum := enumerated_of_settled (settled_of_success unshared whole success) last
  have settles := settles_of_success unshared whole success
  refine ⟨before, l, after, split, targets', names', fun b member targets'' names'' => ?_, ?_, enum, ?_⟩
  · exact later b member ⟨targets'', names''⟩
  · rw [property?_of_settles unshared whole settles, inline]
  · rw [enum]
    simp

/-- Of the rivals for the kind of a pet the stray is the last, so it is the one that survives. -/
theorem stray_survives_its_rivals :
    ∃ h id, (propagate (Graph.ofTree rivalMappings).1 (Graph.ofTree rivalMappings).2).result = .ok h ∧
      property? h (Graph.ofTree rivalMappings).2 "Pet" (.text "kind") = some id ∧
      enumerated h id = some [.text "stray"] ∧
      ¬∃ vs, enumerated h id = some vs ∧ .text "cat" ∈ vs := by
  have listed : assignments (Graph.ofTree rivalMappings).1 (Graph.ofTree rivalMappings).2 =
      [⟨.text "Pet", .text "kind", .text "cat", .text "#/components/schemas/Pet"⟩,
        ⟨.text "Pet", .text "kind", .text "dog", .text "#/components/schemas/Pet"⟩,
        ⟨.text "Pet", .text "kind", .text "bird", .text "#/components/schemas/Bird"⟩] ++
      [⟨.text "Stray", .text "kind", .text "stray", .text "#/components/schemas/Pet"⟩] := by
    decide +kernel
  obtain ⟨h, success⟩ := Except.exists_ok (show (propagate (Graph.ofTree rivalMappings).1
    (Graph.ofTree rivalMappings).2).result.toOption.isSome = true by decide +kernel)
  obtain ⟨id, inline⟩ : ∃ id, property? (Graph.ofTree rivalMappings).1
      (Graph.ofTree rivalMappings).2 "Pet" (.text "kind") = some id :=
    Option.isSome_iff_exists.mp (by decide +kernel)
  obtain ⟨before, l, after, split, -, -, later, still, enum, survives⟩ :=
    last_literal_survives (Graph.unshared_ofTree rivalMappings) (Graph.whole_ofTree rivalMappings) success
      (a := ⟨.text "Pet", .text "kind", .text "cat", .text "#/components/schemas/Pet"⟩)
      (listed ▸ List.mem_append_left _ List.mem_cons_self)
      (show Assignment.Targets _ "Pet" from rfl) rfl inline
  have stray : l.literal = .text "stray" := by
    rw [listed] at split
    rcases List.eq_nil_or_concat' after with rfl | ⟨rest, b, rfl⟩
    · obtain ⟨-, same⟩ := List.append_inj' split rfl
      cases same
      rfl
    · rw [← List.cons_append, ← List.append_assoc] at split
      obtain ⟨-, same⟩ := List.append_inj' split rfl
      cases same
      exact absurd ⟨_, rfl, by decide⟩ (later _ (List.mem_append_right _ List.mem_cons_self) rfl)
  rw [stray] at enum survives
  exact ⟨h, id, success, still, enum, survives.not.mpr (by decide)⟩

/-- A mapping that has two names for cats. -/
def catMapping : Tree :=
  .mapping [(.text "components", .mapping [(.text "schemas", .mapping [
    (.text "Pet", .mapping [
      (.text "discriminator", .mapping [
        (.text "propertyName", .scalar (.text "kind")),
        (.text "mapping", .mapping [
          (.text "cat", .scalar (.text "#/components/schemas/Cat")),
          (.text "kitten", .scalar (.text "#/components/schemas/Cat"))])])]),
    (.text "Cat", .mapping [
      (.text "properties", .mapping [
        (.text "kind", .mapping [(.text "type", .scalar (.text "string"))])])])])])]

/-- A cat may only be called a kitten in the end. -/
theorem cat_is_lost_to_kitten :
    (Graph.ofTree catMapping).1.Unshared (Graph.ofTree catMapping).2 ∧
    (⟨.text "Pet", .text "kind", .text "cat", .text "#/components/schemas/Cat"⟩ : Assignment) ∈
      assignments (Graph.ofTree catMapping).1 (Graph.ofTree catMapping).2 ∧
    ∃ h id, (propagate (Graph.ofTree catMapping).1 (Graph.ofTree catMapping).2).result = .ok h ∧
      property? (Graph.ofTree catMapping).1 (Graph.ofTree catMapping).2 "Cat" (.text "kind") = some id ∧
      ∃ vs, enumerated h id = some vs ∧ .text "cat" ∉ vs := by
  obtain ⟨id, inline⟩ : ∃ id, property? (Graph.ofTree catMapping).1
      (Graph.ofTree catMapping).2 "Cat" (.text "kind") = some id :=
    Option.isSome_iff_exists.mp (by decide +kernel)
  have evaluated : ((propagate (Graph.ofTree catMapping).1 (Graph.ofTree catMapping).2).result.toOption.map
      fun h => (property? (Graph.ofTree catMapping).1 (Graph.ofTree catMapping).2 "Cat"
        (.text "kind")).bind (enumerated h)) = some (some [.text "kitten"]) := by
    decide +kernel
  obtain ⟨h, success, enum⟩ := Except.exists_of_map_toOption evaluated
  rw [inline] at enum
  exact ⟨Graph.unshared_ofTree catMapping, by decide +kernel, h, id, success, inline, _, enum, by decide⟩

end Discriminator

end TypedClient
