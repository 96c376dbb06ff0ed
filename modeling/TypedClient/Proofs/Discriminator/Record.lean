import TypedClient.Proofs.Discriminator.Success
import TypedClient.Proofs.Document.Json
import TypedClient.Proofs.Schema.Record
import TypedClient.Proofs.Schema.Sharing

/-!
# Records with literals

Literals that are put at properties leave a record the record that it was. A property of a string kind
that is assigned to is the text of the last literal for it, and a property that nothing is assigned to
stands for the same as before.
-/
namespace TypedClient

open TypedClient.Graph (propertyAddress)

namespace Graph

variable {g h : Graph} {document : Value}

theorem fields_of_view_eq {v : Value} (same : h.view v = g.view v) : h.fields v = g.fields v := by
  rw [fields, fields, entries?_of_view_eq same]

namespace Settles

variable (settles : g.Settles document h) (unshared : g.Unshared document) (whole : g.Whole document)

include settles unshared whole

theorem components_eq : h.components document .schemas = g.components document .schemas := by
  have here := Addressed.refl g document
  have top := fields_of_view_eq (settles.view_eq unshared whole here (by simp [propertyAddress]))
  have part : h.fields ((g.fields document).field "components") =
      g.fields ((g.fields document).field "components") :=
    fields_of_view_eq (settles.view_field_eq unshared whole here (by simp [propertyAddress]))
  rw [components, components, top, part]
  rcases here.field "components" with null | addressed
  · rw [null]
    rfl
  · exact fields_of_view_eq (settles.view_field_eq unshared whole addressed (by simp [propertyAddress]))

variable {schema : Scalar} {v : Value}
  (place : g.Addressed document [.text "components", .text "schemas", schema] v)

include place

/-- A literal changes nothing about a schema but what its properties are. -/
theorem fields_schema : h.fields v = g.fields v :=
  fields_of_view_eq (settles.view_eq unshared whole place (by simp [propertyAddress]))

theorem view_schema_field (name : String) :
    h.view ((g.fields v).field name) = g.view ((g.fields v).field name) :=
  settles.view_field_eq unshared whole place (by simp [propertyAddress])

theorem properties_eq : Schema.properties h v = Schema.properties g v := by
  rw [Schema.properties, Schema.properties, settles.fields_schema unshared whole place]
  exact fields_of_view_eq (settles.view_schema_field unshared whole place _)

theorem isNullable_eq : Schema.isNullable h v = Schema.isNullable g v := by
  rw [Schema.isNullable, Schema.isNullable, settles.fields_schema unshared whole place]
  exact truthy_of_view_eq (settles.view_schema_field unshared whole place _)

theorem isRecord (record : Schema.IsRecord g v) : Schema.IsRecord h v := by
  have fields := settles.fields_schema unshared whole place
  have view := settles.view_schema_field unshared whole place
  refine ⟨?_, ?_, fun c => ?_, ?_⟩ <;> rw [fields]
  · rw [truthy_of_view_eq (view _)]
    exact record.inline
  · exact record.type
  · rw [truthy_of_view_eq (view _)]
    exact record.simple c
  · rw [isMapping, entries?_of_view_eq (view _)]
    exact record.mapping

theorem requiredNames_eq : Schema.requiredNames h (h.fields v) = Schema.requiredNames g (g.fields v) := by
  rw [settles.fields_schema unshared whole place]
  have nodes : ∀ id : Nat, g.Contains ((g.fields v).field "required") (.node id) →
      h.nodes[id]? = g.nodes[id]? := by
    intro id contains
    rcases place.field "required" with null | addressed
    · rw [null] at contains
      rcases contains.cases with same | ⟨part, member, -⟩
      · cases same
      · cases member
    · exact settles.getElem?_below unshared whole addressed (by simp [propertyAddress]) contains
  exact Schema.requiredNames_of_related (isCopy_of_nodes nodes) ⟨rfl, .inr (.refl g _)⟩

end Settles

end Graph

namespace Discriminator

variable {g h : Graph} {document : Value}

/-! ### The literal of a property -/

/-- The last literal that is assigned to a property of a schema. -/
def lastAssigned (g : Graph) (document : Value) (schema property : String) : Option Scalar :=
  ((assignments g document).reverse.find? fun a =>
    decide (a.Targets schema ∧ a.property = .text property)).map (·.literal)

theorem names_text_iff {a : Assignment} {property : String} :
    a.Names (.text property) ↔ a.property = .text property := by
  constructor
  · rintro ⟨s, stated, same⟩
    rw [stated, Scalar.same_text_iff.mp same]
    rfl
  · exact fun stated => ⟨_, stated, Scalar.same_text_iff.mpr rfl⟩

theorem write?_node_iff (unshared : g.Unshared document) {name property : String} {id : NodeId}
    (here : property? g document name (.text property) = some id) (a : Assignment) :
    (write? g document a).any (fun w => w.node = id) = true ↔
      a.Targets name ∧ a.property = .text property := by
  rw [Option.any_eq_true]
  constructor
  · rintro ⟨w, written, node⟩
    rw [decide_eq_true_eq] at node
    obtain ⟨-, name', s, targets, stated, there⟩ := write?_eq_some written
    obtain ⟨rfl, same⟩ := property?_unique unshared (node ▸ there) here
    exact ⟨targets, names_text_iff.mp ⟨s, stated, same⟩⟩
  · rintro ⟨targets, stated⟩
    exact ⟨_, write?_of_property? here targets (names_text_iff.mpr stated), by simp⟩

/-- An inline property gets the literal that is assigned to it last. -/
theorem lastLiteral_eq_lastAssigned (unshared : g.Unshared document) {name property : String}
    {id : NodeId} (here : property? g document name (.text property) = some id) :
    lastLiteral ((assignments g document).filterMap (write? g document)) id =
      lastAssigned g document name property := by
  have same : (fun a => (write? g document a).any fun w => w.node = id) = fun a : Assignment =>
      decide (a.Targets name ∧ a.property = .text property) := by
    funext a
    rw [Bool.eq_iff_iff, write?_node_iff unshared here, decide_eq_true_eq]
  rw [lastLiteral, lastAssigned, ← List.filterMap_reverse, List.find?_filterMap, same]
  cases found : (assignments g document).reverse.find? fun a =>
      decide (a.Targets name ∧ a.property = .text property) with
  | none => rfl
  | some a =>
    have holds := List.find?_some found
    rw [decide_eq_true_eq] at holds
    obtain ⟨targets, stated⟩ := holds
    rw [Option.bind_some, write?_of_property? here targets (names_text_iff.mpr stated)]
    rfl

theorem lastLiteral_of_never (unshared : g.Unshared document) {name : String} {key : Scalar}
    {id : NodeId} (place : g.Addressed document (propertyAddress (.text name) key) (.node id))
    (never : ∀ a ∈ assignments g document, a.Targets name → ¬a.Names key) :
    lastLiteral ((assignments g document).filterMap (write? g document)) id = none := by
  refine lastLiteral_eq_none fun a member w written node => ?_
  obtain ⟨-, name', s, targets, stated, here⟩ := write?_eq_some written
  obtain ⟨key', same, place'⟩ := addressed_property? here
  have addresses := unshared.address_eq (node ▸ place') place
  simp only [propertyAddress, List.cons.injEq, Scalar.text.injEq, true_and, and_true] at addresses
  obtain ⟨rfl, rfl⟩ := addresses
  rw [Scalar.same, decide_eq_true_eq] at same
  exact never a member targets ⟨s, stated, by rw [Scalar.same, same, decide_eq_true_eq]⟩

/-- A property that nothing is assigned to resolves as before. -/
theorem resolve_of_never (unshared : g.Unshared document) (whole : g.Whole document)
    (success : (propagate g document).result = .ok h) {name : String} {key : Scalar} {v : Value}
    (place : g.Addressed document (propertyAddress (.text name) key) v)
    (never : ∀ a ∈ assignments g document, a.Targets name → ¬a.Names key) (p : String) :
    Schema.resolve h v p = Schema.resolve g v p := by
  have settled := settled_of_success unshared whole success
  have settles := settles_of_success unshared whole success
  have nodes : ∀ id : Nat, g.Contains v (.node id) → h.nodes[id]? = g.nodes[id]? := by
    intro id contains
    have inside := whole id (place.contains.trans contains)
    by_cases slot : g.Slot document id
    · -- no property of a schema stands below another, so this is the property itself
      obtain ⟨schema, property, place'⟩ := slot.place
      obtain rfl := unshared.eq_of_length_le place contains place' (by simp [propertyAddress])
      exact settled.kept id inside (lastLiteral_of_never unshared place never)
    · exact settles.getElem?_eq inside slot
  obtain ⟨t, unfolds⟩ := unshared.exists_unfolds whole place.contains
  exact Schema.resolveWithin_copy (Graph.isCopy_of_nodes nodes) (Schema.acc_isInside unfolds.ends)
    (fun _ _ => Schema.exists_unfolds_of_enumerates unfolds) ⟨rfl, .inr (.refl g v)⟩ (by simp)
    (by simp) p

/-- In a JSON document the literals are texts. -/
theorem literal_of_mem_assignments (json : g.IsJson document) {a : Assignment}
    (member : a ∈ assignments g document) : ∃ l, a.literal = .text l := by
  obtain ⟨e, schema, ofSchema⟩ := List.mem_flatMap.mp member
  obtain ⟨entry, listed, rfl⟩ := List.mem_map.mp ofSchema
  rcases contains_field_discriminator schema "mapping" with null | stated
  · rw [null] at listed
    cases listed
  · exact (Entries.areNamed_iff.mp (json.areNamed_fields stated)).1 _ (List.mem_map_of_mem listed)

theorem exists_lastAssigned (json : g.IsJson document) {a : Assignment} {schema property : String}
    (member : a ∈ assignments g document) (targets : a.Targets schema)
    (stated : a.property = .text property) :
    ∃ l, lastAssigned g document schema property = some (.text l) := by
  have found : ((assignments g document).reverse.find? fun a =>
      decide (a.Targets schema ∧ a.property = .text property)).isSome := by
    rw [List.find?_isSome]
    exact ⟨a, List.mem_reverse.mpr member, decide_eq_true ⟨targets, stated⟩⟩
  obtain ⟨b, found⟩ := Option.isSome_iff_exists.mp found
  obtain ⟨l, text⟩ := literal_of_mem_assignments json
    (List.mem_reverse.mp (List.mem_of_find?_eq_some found))
  exact ⟨l, by rw [lastAssigned, found, Option.map_some, text]⟩

theorem areNamed_components (json : g.IsJson document) (ns : Namespace) :
    Entries.areNamed (g.components document ns) = true := by
  unfold Graph.components
  rcases (Graph.Addressed.refl g document).field "components" with null | addressed
  · rw [null]
    rfl
  · rcases addressed.field ns.key with null | addressed
    · rw [null]
      rfl
    · exact json.areNamed_fields addressed.contains

section Property

variable {name p : String} {schema v : Value}
  (here : (Scalar.text name, schema) ∈ g.components document .schemas)
  (property : (Scalar.text p, v) ∈ Schema.properties g schema)

include here property

theorem addressed_of_mem_properties :
    g.Addressed document (propertyAddress (.text name) (.text p)) v :=
  (addressed_of_mem_components here).field_entry property

variable (json : g.IsJson document)

include json

/-- In a JSON document a property is found under its name. -/
theorem lookup?_properties : Entries.lookup? (Schema.properties g schema) (.text p) = some v := by
  rcases (addressed_of_mem_components here).field "properties" with null | addressed
  · rw [Schema.properties, null] at property
    cases property
  · have named := Entries.areNamed_iff.mp (json.areNamed_fields addressed.contains)
    exact Entries.lookup?_text_of_mem named.2 property

theorem property?_of_isString (string : Schema.IsString g v) :
    ∃ id fields, v = .node id ∧ g.view v = .mapping id fields ∧
      property? g document name (.text p) = some id := by
  obtain ⟨id, rfl, view⟩ := Graph.view_of_entries? string.entries?
  have schema : (g.components document .schemas).field name = schema := by
    have named := Entries.areNamed_iff.mp (areNamed_components json .schemas)
    rw [Entries.field, Entries.lookup?_text_of_mem named.2 here, Option.getD_some]
  have found := lookup?_properties here property json
  rw [Schema.properties] at found
  refine ⟨id, _, rfl, view, ?_⟩
  simp only [property?, inline?, schema, found, Option.getD_some, view, string.inline,
    Bool.false_eq_true, if_false]

/-- A property of a string kind resolves to the literal that is assigned to it last. -/
theorem resolve_assigned (success : (propagate g document).result = .ok h)
    (string : Schema.IsString g v) {l : String}
    (last : lastAssigned g document name p = some (.text l)) (place : String) :
    (Schema.resolve h v place).map (·.text) =
      .ok (TypeText.literal l ++ Schema.nullText g (g.fields v)) := by
  have settled := settled_of_success json.unshared json.whole success
  have settles := settles_of_success json.unshared json.whole success
  have addressed := addressed_of_mem_properties here property
  obtain ⟨id, fields, rfl, view, inline⟩ := property?_of_isString here property json string
  have literal := (lastLiteral_eq_lastAssigned json.unshared inline).trans last
  obtain ⟨n, enum⟩ := settled.view_enum literal
  obtain ⟨fields', _, mapping, -, written, -⟩ := settled.written id (.text l) literal
  cases mapping.symm.trans (Graph.getElem?_of_view_mapping view)
  have after := Graph.fields_of_view (Graph.view_of_getElem?_mapping written)
  have before := Graph.fields_of_view view
  have kept : ∀ name, name ≠ "enum" →
      (h.fields (.node id)).field name = (g.fields (.node id)).field name := by
    intro name other
    rw [after, before, Entries.field_put other]
  have truthy : ∀ name, name ≠ "enum" → h.truthy ((h.fields (.node id)).field name) =
      g.truthy ((g.fields (.node id)).field name) := by
    intro name other
    rw [kept name other]
    exact Graph.truthy_of_view_eq
      (settles.view_field_eq json.unshared json.whole addressed (by simp [propertyAddress]))
  have string' : Schema.IsString h (.node id) := by
    refine ⟨?_, ?_, ?_⟩
    · rw [truthy "$ref" (by decide)]
      exact string.inline
    · rw [kept "type" (by decide)]
      exact string.type
    · rw [kept "format" (by decide)]
      exact string.format
  have null : Schema.nullText h (h.fields (.node id)) = Schema.nullText g (g.fields (.node id)) := by
    rw [Schema.nullText, Schema.nullText, truthy "nullable" (by decide)]
  rw [string'.resolve_single enum, null]

end Property

end Discriminator

end TypedClient
