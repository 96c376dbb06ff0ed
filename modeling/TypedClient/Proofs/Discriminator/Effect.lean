import TypedClient.Proofs.Discriminator.Plan

/-!
# What discriminators do to a document

Each entry of each mapping assigns a literal to a property of the schema that it refers to. In an
unshared document of the expected shape the assignments are carried out unless one of them refers to
no schema at all; then the first such one is refused. Else every inline property that is assigned to
has the last of its literals as its only value, there is a warning for each schema that is missing,
and nothing else has changed.
-/
namespace TypedClient.Discriminator

open TypedClient.Graph (propertyAddress)

/-- A literal for a property of the schema that a value refers to, stated by the mapping of the schema
with the name `owner`. -/
structure Assignment where
  owner : Scalar
  property : Value
  literal : Scalar
  reference : Value
  deriving DecidableEq, Repr

def assignmentsOf (g : Graph) (schema : Scalar × Value) : List Assignment :=
  let discriminator := g.fields ((g.fields schema.2).field "discriminator")
  (g.fields (discriminator.field "mapping")).map fun e =>
    ⟨schema.1, discriminator.field "propertyName", e.1, e.2⟩

/-- The assignments of a document, in the order of its schemas and then of the mapping. -/
def assignments (g : Graph) (document : Value) : List Assignment :=
  (g.components document .schemas).flatMap (assignmentsOf g)

namespace Assignment

def pointer (a : Assignment) : String := schemasRoot ++ a.owner.display ++ "/discriminator"

/-- The assignment refers to the schema of this name. -/
def Targets (a : Assignment) (name : String) : Prop := a.reference = .text (schemasRoot ++ name)

instance (a : Assignment) (name : String) : Decidable (a.Targets name) :=
  inferInstanceAs (Decidable (_ = _))

/-- The assignment is for the property with this key. -/
def Names (a : Assignment) (property : Scalar) : Prop :=
  ∃ s, a.property = .scalar s ∧ s.same property = true

def target? (a : Assignment) : Option String :=
  match a.reference with
  | .scalar (.text s) => (Text.dropStart? schemasRoot.toList s.toList).map String.ofList
  | _ => none

theorem target?_eq_some_iff {a : Assignment} {name : String} :
    a.target? = some name ↔ a.Targets name := by
  unfold target? Targets
  split
  · next s reference =>
    rw [Option.map_eq_some_iff]
    constructor
    · rintro ⟨rest, found, rfl⟩
      have same := Text.dropStart?_eq_some_iff.mp found
      have whole : s = schemasRoot ++ String.ofList rest := by
        rw [← String.ofList_toList (s := s), same, String.ofList_append, String.ofList_toList]
      rw [reference, whole]
      rfl
    · intro same
      rw [reference] at same
      refine ⟨name.toList, Text.dropStart?_eq_some_iff.mpr ?_, String.ofList_toList⟩
      cases same
      exact String.toList_append
  · next other =>
    refine ⟨nofun, fun same => absurd same (other _)⟩

theorem target?_eq_none_iff {a : Assignment} : a.target? = none ↔ ∀ name, ¬a.Targets name := by
  simp only [Option.eq_none_iff_forall_ne_some, ne_eq, target?_eq_some_iff]

end Assignment

section Effect

variable (g : Graph) (document : Value)

/-- The node of a property of a schema, where the property is an inline mapping. -/
def property? (name : String) (property : Scalar) : Option NodeId :=
  let schema := (g.components document .schemas).field name
  inline? g (g.fields ((g.fields schema).field "properties")) property

/-- The warning that the schema is missing. -/
def unknownTarget? (a : Assignment) : Option UnknownTarget :=
  a.target?.bind fun name =>
    if g.isMapping ((g.components document .schemas).field name) then none
    else some ⟨a.literal, name⟩

/-- What is said of a value that refers to no schema. -/
def refusal (a : Assignment) : Stop :=
  if g.hasText a.reference then
    .failure (.discriminatorMapping (g.display a.reference) (some a.pointer))
  else .malformed .numberTooLong

def write? (a : Assignment) : Option Write :=
  match a.target?, a.property with
  | some name, .scalar s => (property? g document name s).map (⟨·, a.literal⟩)
  | _, _ => none

/-- The value is a mapping, or is left out. -/
def MayBeMapping (v : Value) : Prop := (!g.truthy v || g.isMapping v) = true

instance (v : Value) : Decidable (MayBeMapping g v) := inferInstanceAs (Decidable (_ = _))

instance (v : Value) : Decidable (∃ s, v = .scalar s) :=
  match v with
  | .scalar s => isTrue ⟨s, rfl⟩
  | .node _ => isFalse nofun

/-- The shapes that are expected of what has to do with discriminators. -/
structure Shaped : Prop where
  isMapping : g.isMapping document = true
  components : MayBeMapping g ((g.fields document).field "components")
  schemas : MayBeMapping g ((g.fields ((g.fields document).field "components")).field "schemas")
  owners : ∀ e ∈ g.components document .schemas, e.1.hasText = true
  mappings : ∀ e ∈ g.components document .schemas,
    MayBeMapping g ((g.fields ((g.fields e.2).field "discriminator")).field "mapping")
  names : ∀ e ∈ g.components document .schemas,
    ∃ s, (g.fields ((g.fields e.2).field "discriminator")).field "propertyName" = .scalar s
  properties : ∀ e ∈ g.components document .schemas,
    MayBeMapping g ((g.fields e.2).field "properties")

instance : Decidable (Shaped g document) :=
  decidable_of_iff
    (g.isMapping document = true ∧ MayBeMapping g ((g.fields document).field "components") ∧
      MayBeMapping g ((g.fields ((g.fields document).field "components")).field "schemas") ∧
      ∀ e ∈ g.components document .schemas, e.1.hasText = true ∧
        MayBeMapping g ((g.fields ((g.fields e.2).field "discriminator")).field "mapping") ∧
        (∃ s, (g.fields ((g.fields e.2).field "discriminator")).field "propertyName" = .scalar s) ∧
        MayBeMapping g ((g.fields e.2).field "properties"))
    ⟨fun shape => ⟨shape.1, shape.2.1, shape.2.2.1, fun e schema => (shape.2.2.2 e schema).1,
        fun e schema => (shape.2.2.2 e schema).2.1, fun e schema => (shape.2.2.2 e schema).2.2.1,
        fun e schema => (shape.2.2.2 e schema).2.2.2⟩,
      fun shaped => ⟨shaped.isMapping, shaped.components, shaped.schemas, fun e schema =>
        ⟨shaped.owners e schema, shaped.mappings e schema, shaped.names e schema,
          shaped.properties e schema⟩⟩⟩

/-- The second graph has the literal as the only value of this mapping of the first one: its key
`enum` has it in a new list, and stands where it stood or at the end. -/
def Enumerates (id : NodeId) (literal : Scalar) (h : Graph) : Prop :=
  ∃ fields, ∃ n : Nat, g.nodes[id]? = some (.mapping fields) ∧ g.nodes.size ≤ n ∧
    h.nodes[id]? = some (.mapping (Entries.put (.text "enum") (.node n) fields)) ∧
    h.nodes[n]? = some (.list [.scalar literal])

end Effect

variable {g h : Graph} {document : Value}

/-! ### Plans in a row -/

namespace Plan

variable {α β : Type} (f : α → Plan) (p q r : Plan)

theorem nothing_andThen : nothing.andThen p = p := by
  obtain ⟨warnings, _ | ws⟩ := p <;> simp [nothing, andThen, Except.map]

theorem andThen_assoc : (p.andThen q).andThen r = p.andThen (q.andThen r) := by
  obtain ⟨warnings, _ | ws⟩ := p
  · rfl
  · obtain ⟨warnings', _ | ws'⟩ := q
    · rfl
    · obtain ⟨warnings'', _ | ws''⟩ := r <;> simp [andThen, Except.map]

theorem each_append (l l' : List α) : each f (l ++ l') = (each f l).andThen (each f l') := by
  induction l with
  | nil => exact (nothing_andThen _).symm
  | cons a l ih => rw [List.cons_append, each, ih, each, andThen_assoc]

theorem each_map (k : β → α) (l : List β) : each f (l.map k) = each (fun b => f (k b)) l := by
  induction l with
  | nil => rfl
  | cons b l ih => rw [List.map_cons, each, ih, each]

theorem each_flatMap (k : β → List α) (l : List β) :
    each f (l.flatMap k) = each (fun b => each f (k b)) l := by
  induction l with
  | nil => rfl
  | cons b l ih => rw [List.flatMap_cons, each_append, ih, each]

theorem each_congr {f f' : α → Plan} {l : List α} (same : ∀ a ∈ l, f a = f' a) :
    each f l = each f' l := by
  induction l with
  | nil => rfl
  | cons a l ih =>
    have rest := ih fun b member => same b (List.mem_cons_of_mem _ member)
    rw [each, each, same a List.mem_cons_self, rest]

end Plan

/-! ### The plan of a document of the expected shape -/

/-- What is planned for an assignment. -/
def planOf (g : Graph) (document : Value) (a : Assignment) : Plan :=
  match a.target? with
  | none => .stop (refusal g a)
  | some _ => ⟨(unknownTarget? g document a).toList, .ok (write? g document a).toList⟩

theorem optionalEntries_of_mayBeMapping {v : Value} (shape : MayBeMapping g v) :
    g.optionalEntries v = .ok (g.fields v) := by
  rw [MayBeMapping] at shape
  rw [Graph.optionalEntries_eq, if_pos shape]

theorem mayBeMapping_null (g : Graph) : MayBeMapping g .null := rfl

theorem fields_null (g : Graph) : g.fields .null = [] := rfl

theorem field_nil (name : String) : Entries.field [] name = .null := rfl

theorem schemas_eq_ok (shaped : Shaped g document) :
    schemas g document =
      .ok ((g.fields ((g.fields document).field "components")).field "schemas") := by
  unfold schemas
  rw [Graph.entries_of_isMapping shaped.isMapping, Except.ok_bind,
    optionalEntries_of_mayBeMapping shaped.components]
  rfl

/-- A mapping that may be left out is planned for as its entries are. -/
theorem planEntries_of_mayBeMapping {v : Value} (shape : MayBeMapping g v)
    (plan : Scalar × Value → Plan) :
    (if !g.truthy v then Plan.nothing else planEntries g v plan) = .each plan (g.fields v) := by
  cases given : g.truthy v with
  | false => simp [Graph.fields_of_not_truthy given, Plan.each]
  | true =>
    rw [MayBeMapping, given] at shape
    simp [planEntries, Graph.entries_eq, show g.isMapping v = true by simpa using shape]

/-- A schema that a document has is an entry of its components. -/
theorem mayBeMapping_properties (shaped : Shaped g document) (name : String) :
    MayBeMapping g ((g.fields ((g.components document .schemas).field name)).field "properties") := by
  rcases Graph.exists_index_field (g.components document .schemas) name with null | ⟨index, here⟩
  · rw [null, fields_null, field_nil]
    exact mayBeMapping_null g
  · have stated := shaped.properties _ (List.mem_of_getElem? here)
    exact stated

theorem targetName_eq (g : Graph) (a : Assignment) :
    targetName g a.pointer a.reference =
      match a.target? with
      | some name => .ok name
      | none => .error (refusal g a) := by
  have refused : (do fail (.discriminatorMapping (← g.textOf a.reference) (some a.pointer)) :
      Result String) = .error (refusal g a) := by
    unfold refusal Graph.textOf
    split <;> rfl
  unfold targetName Assignment.target?
  obtain ⟨owner, property, literal, reference⟩ := a
  cases reference with
  | node id => exact refused
  | scalar s =>
    cases s with
    | text s =>
      simp only
      cases Text.dropStart? schemasRoot.toList s.toList with
      | some rest => rfl
      | none => exact refused
    | _ => exact refused

theorem entries_of_mem_fields {v : Value} {e : Scalar × Value} (member : e ∈ g.fields v) :
    g.entries v = .ok (g.fields v) := by
  cases entries : g.entries? v with
  | none =>
    rw [Graph.fields_of_other entries] at member
    cases member
  | some es => rw [Graph.entries, entries, Graph.fields_of_entries? entries]

theorem planAssign_eq (shaped : Shaped g document) {e : Scalar × Value}
    (schema : e ∈ g.components document .schemas) {a : Assignment} (member : a ∈ assignmentsOf g e) :
    planAssign g ((g.fields ((g.fields document).field "components")).field "schemas") a.property
      a.pointer (a.literal, a.reference) = planOf g document a := by
  have property : ∃ s, a.property = .scalar s := by
    obtain ⟨m, -, rfl⟩ := List.mem_map.mp member
    exact shaped.names e schema
  have known : g.entries ((g.fields ((g.fields document).field "components")).field "schemas") =
      .ok (g.components document .schemas) := entries_of_mem_fields schema
  obtain ⟨s, property⟩ := property
  unfold planAssign planOf
  rw [targetName_eq, known]
  cases target : a.target? with
  | none => rfl
  | some name =>
    have stated := optionalEntries_of_mayBeMapping (mayBeMapping_properties shaped name)
    simp only [Except.ok_bind, unknownTarget?, target, Option.bind_some, write?, property, property?]
    cases entries : g.entries? ((g.components document .schemas).field name) with
    | none =>
      simp only [Graph.isMapping, entries, Graph.fields_of_other entries]
      rfl
    | some fields =>
      rw [Graph.fields_of_entries? entries] at stated ⊢
      have view : g.comparable (.scalar s) = .ok s := rfl
      simp only [Graph.isMapping, entries, planProperty, stated, Except.ok_bind, view]
      cases inline? g (g.fields (fields.field "properties")) s <;> rfl

theorem planAll_eq (shaped : Shaped g document) {e : Scalar × Value}
    (schema : e ∈ g.components document .schemas) :
    planAll g ((g.fields ((g.fields document).field "components")).field "schemas") e =
      .each (planOf g document) (assignmentsOf g e) := by
  unfold planAll
  cases entries : g.entries? e.2 with
  | none => simp [assignmentsOf, Graph.fields_of_other entries, field_nil, fields_null, Plan.each]
  | some fields =>
    obtain rfl := Graph.fields_of_entries? entries
    simp only
    cases stated : g.entries? ((g.fields e.2).field "discriminator") with
    | none => simp [assignmentsOf, Graph.fields_of_other stated, field_nil, fields_null, Plan.each]
    | some discriminator =>
      obtain rfl := Graph.fields_of_entries? stated
      have named : e.1.textOf = .ok e.1.display := by
        rw [Scalar.textOf, if_pos (shaped.owners e schema)]
      simp only [named]
      refine (planEntries_of_mayBeMapping (shaped.mappings e schema) _).trans ?_
      rw [assignmentsOf, Plan.each_map]
      refine Plan.each_congr fun entry member => ?_
      have inside : _ ∈ assignmentsOf g e := List.mem_map_of_mem member
      have planned := planAssign_eq shaped schema inside
      simpa only [Assignment.pointer] using planned

theorem plan_eq (shaped : Shaped g document) :
    plan g document = .each (planOf g document) (assignments g document) := by
  unfold plan assignments
  rw [schemas_eq_ok shaped, Plan.each_flatMap]
  refine (planEntries_of_mayBeMapping shaped.schemas _).trans ?_
  exact Plan.each_congr fun e schema => planAll_eq shaped schema

theorem each_of_targets {as : List Assignment} (all : ∀ a ∈ as, ∃ name, a.Targets name) :
    Plan.each (planOf g document) as =
      ⟨as.filterMap (unknownTarget? g document), .ok (as.filterMap (write? g document))⟩ := by
  induction as with
  | nil => rfl
  | cons a as ih =>
    obtain ⟨name, targets⟩ := all a List.mem_cons_self
    rw [Plan.each, ih fun b member => all b (List.mem_cons_of_mem _ member), planOf,
      Assignment.target?_eq_some_iff.mpr targets]
    cases unknown : unknownTarget? g document a <;> cases written : write? g document a <;>
      simp [Plan.andThen, unknown, written, Except.map]

theorem each_of_refused {before after : List Assignment} {a : Assignment}
    (good : ∀ b ∈ before, ∃ name, b.Targets name) (bad : ∀ name, ¬a.Targets name) :
    Plan.each (planOf g document) (before ++ a :: after) =
      ⟨before.filterMap (unknownTarget? g document), .error (refusal g a)⟩ := by
  rw [Plan.each_append, each_of_targets good, Plan.each, planOf,
    Assignment.target?_eq_none_iff.mpr bad]
  simp [Plan.andThen, Plan.stop, Except.map]

/-- If some assignment refers to no schema there is a first one. -/
theorem exists_first_refused {as : List Assignment} (some : ∃ a ∈ as, ∀ name, ¬a.Targets name) :
    ∃ before a after, as = before ++ a :: after ∧
      (∀ b ∈ before, ∃ name, b.Targets name) ∧ ∀ name, ¬a.Targets name := by
  obtain ⟨a, member, bad⟩ := some
  have found : (as.find? fun a => a.target?.isNone).isSome := by
    rw [List.find?_isSome]
    exact ⟨a, member, by rw [Assignment.target?_eq_none_iff.mpr bad]; rfl⟩
  obtain ⟨first, found⟩ := Option.isSome_iff_exists.mp found
  obtain ⟨bad, before, after, split, good⟩ := List.find?_eq_some_iff_append.mp found
  refine ⟨before, first, after, split, fun b member => ?_, ?_⟩
  · have targets := good b member
    rw [Bool.not_eq_true', Option.isNone_eq_false_iff, Option.isSome_iff_exists] at targets
    exact targets.imp fun name => Assignment.target?_eq_some_iff.mp
  · exact Assignment.target?_eq_none_iff.mp (Option.isNone_iff_eq_none.mp bad)

/-! ### Which assignment is for which property -/

theorem addressed_schema (g : Graph) (document : Value) (name : String) :
    (g.components document .schemas).field name = .null ∨
      g.Addressed document [.text "components", .text "schemas", .text name]
        ((g.components document .schemas).field name) := by
  unfold Graph.components
  rcases (Graph.Addressed.refl g document).field "components" with null | addressed
  · rw [null]
    exact .inl rfl
  · rcases addressed.field "schemas" with null | addressed
    · rw [show Namespace.schemas.key = "schemas" from rfl, null]
      exact .inl rfl
    · exact addressed.field name

/-- A property stands at its address in the document. -/
theorem addressed_property? {name : String} {property : Scalar} {id : NodeId}
    (here : property? g document name property = some id) :
    ∃ key, key.same property = true ∧
      g.Addressed document (propertyAddress (.text name) key) (.node id) := by
  obtain ⟨fields, -, found⟩ := inline?_eq_some here
  rcases addressed_schema g document name with null | addressed
  · rw [null] at found
    cases found
  · exact addressed_property addressed found

/-- In an unshared document no node is the property of two names or two schemas. -/
theorem property?_unique (unshared : g.Unshared document) {name name' : String}
    {property property' : Scalar} {id : NodeId}
    (here : property? g document name property = some id)
    (there : property? g document name' property' = some id) :
    name = name' ∧ property.same property' = true := by
  obtain ⟨key, same, place⟩ := addressed_property? here
  obtain ⟨key', same', place'⟩ := addressed_property? there
  have addresses := unshared.address_eq place place'
  simp only [propertyAddress, List.cons.injEq, Scalar.text.injEq, true_and, and_true] at addresses
  obtain ⟨rfl, rfl⟩ := addresses
  refine ⟨rfl, ?_⟩
  simp only [Scalar.same, decide_eq_true_eq] at same same' ⊢
  exact same.symm.trans same'

theorem write?_eq_some {a : Assignment} {w : Write} (written : write? g document a = some w) :
    w.literal = a.literal ∧ ∃ name s, a.Targets name ∧ a.property = .scalar s ∧
      property? g document name s = some w.node := by
  unfold write? at written
  split at written
  · next name s target property =>
    obtain ⟨id, here, rfl⟩ := Option.map_eq_some_iff.mp written
    exact ⟨rfl, name, s, Assignment.target?_eq_some_iff.mp target, property, here⟩
  · cases written

theorem write?_of_property? {a : Assignment} {name : String} {property : Scalar} {id : NodeId}
    (here : property? g document name property = some id) (targets : a.Targets name)
    (names : a.Names property) : write? g document a = some ⟨id, a.literal⟩ := by
  obtain ⟨s, stated, same⟩ := names
  have key : property? g document name s = property? g document name property := by
    simp only [Scalar.same, decide_eq_true_eq] at same
    simp only [property?, inline?, Entries.lookup?, Scalar.same, same]
  rw [write?, Assignment.target?_eq_some_iff.mpr targets, stated]
  simp only [key, here, Option.map_some]

theorem lastLiteral_eq_some {before after : List Assignment} {a : Assignment} {w : Write}
    (written : write? g document a = some w)
    (later : ∀ b ∈ after, ∀ w', write? g document b = some w' → w'.node ≠ w.node) :
    lastLiteral ((before ++ a :: after).filterMap (write? g document)) w.node = some w.literal := by
  have none : (after.filterMap (write? g document)).reverse.find?
      (fun w' => w'.node = w.node) = none := by
    refine List.find?_eq_none.mpr fun w' member => ?_
    obtain ⟨b, member, here⟩ := List.mem_filterMap.mp (List.mem_reverse.mp member)
    simpa using later b member w' here
  simp [lastLiteral, List.filterMap_append, written, none]

theorem lastLiteral_eq_none {as : List Assignment} {id : NodeId}
    (never : ∀ a ∈ as, ∀ w, write? g document a = some w → w.node ≠ id) :
    lastLiteral (as.filterMap (write? g document)) id = none := by
  rw [lastLiteral, Option.map_eq_none_iff, List.find?_eq_none]
  intro w member
  obtain ⟨a, member, here⟩ := List.mem_filterMap.mp (List.mem_reverse.mp member)
  simpa using never a member w here

/-! ### The whole effect -/

/-- An assignment that refers to no schema stops the run, the first one with what is said of it. If
there is none the run succeeds, with a warning for each schema that is missing; then the mapping of
an inline property has the last literal that is assigned to it as its only value, and every other
node is as it was. -/
theorem propagate_effect (unshared : g.Unshared document) (whole : g.Whole document)
    (shaped : Shaped g document) :
    ((∃ s, (propagate g document).result = .error s) ↔
      ∃ a ∈ assignments g document, ∀ name, ¬a.Targets name) ∧
    (∀ before a after, assignments g document = before ++ a :: after →
      (∀ b ∈ before, ∃ name, b.Targets name) → (∀ name, ¬a.Targets name) →
      propagate g document =
        ⟨before.filterMap (unknownTarget? g document), .error (refusal g a)⟩) ∧
    ((∀ a ∈ assignments g document, ∃ name, a.Targets name) → ∃ h,
      propagate g document =
        ⟨(assignments g document).filterMap (unknownTarget? g document), .ok h⟩ ∧
      (∀ name property id, property? g document name property = some id →
        ∀ before a after, assignments g document = before ++ a :: after →
          a.Targets name → a.Names property →
          (∀ b ∈ after, b.Targets name → ¬b.Names property) → Enumerates g id a.literal h) ∧
      ∀ id : Nat, id < g.nodes.size →
        (∀ name property, property? g document name property = some id →
          ∀ a ∈ assignments g document, a.Targets name → ¬a.Names property) →
        h.nodes[id]? = g.nodes[id]?) := by
  have start := Graph.Settles.refl g document
  have follows := follows_propagate unshared whole
  have run := follows.run g start
  rw [plan_eq shaped] at run
  have refused : ∀ before a after, assignments g document = before ++ a :: after →
      (∀ b ∈ before, ∃ name, b.Targets name) → (∀ name, ¬a.Targets name) →
      propagate g document =
        ⟨before.filterMap (unknownTarget? g document), .error (refusal g a)⟩ := by
    intro before a after split good bad
    rw [run, split, each_of_refused good bad]
    rfl
  have succeeds : (∀ a ∈ assignments g document, ∃ name, a.Targets name) → ∃ h,
      propagate g document =
        ⟨(assignments g document).filterMap (unknownTarget? g document), .ok h⟩ := by
    intro all
    rw [run, each_of_targets all]
    exact ⟨_, rfl⟩
  refine ⟨⟨?_, ?_⟩, refused, fun all => ?_⟩
  · rintro ⟨s, stopped⟩
    by_contra none
    push Not at none
    obtain ⟨h, success⟩ := succeeds none
    rw [success] at stopped
    cases stopped
  · rintro ⟨a, member, bad⟩
    obtain ⟨before, a, after, split, good, bad⟩ := exists_first_refused ⟨a, member, bad⟩
    exact ⟨_, congrArg Outcome.result (refused before a after split good bad)⟩
  · obtain ⟨h, success⟩ := succeeds all
    have planned : (plan g document).writes =
        .ok ((assignments g document).filterMap (write? g document)) := by
      rw [plan_eq shaped, each_of_targets all]
    have settled := settled_of_propagate unshared whole planned start (.refl g)
      (congrArg Outcome.result success)
    simp only [Option.or_none] at settled
    refine ⟨h, success, ?_, ?_⟩
    · intro name property id here before a after split targets names later
      have written := write?_of_property? here targets names
      refine settled.written id a.literal ?_
      rw [split]
      refine lastLiteral_eq_some written fun b member w' written' same => ?_
      obtain ⟨-, name', s, targets', stated, there⟩ := write?_eq_some written'
      obtain ⟨rfl, same⟩ := property?_unique unshared (same ▸ there) here
      exact later b member targets' ⟨s, stated, same⟩
    · intro id inside never
      refine settled.kept id inside (lastLiteral_eq_none fun a member w written same => ?_)
      obtain ⟨-, name, s, targets, stated, here⟩ := write?_eq_some written
      have same' : s.same s = true := by simp [Scalar.same]
      exact never name s (same ▸ here) a member targets ⟨s, stated, same'⟩

theorem last_rival_stays :
    (Graph.ofTree rivalMappings).1.Unshared (Graph.ofTree rivalMappings).2 ∧
    (Graph.ofTree rivalMappings).1.Whole (Graph.ofTree rivalMappings).2 ∧
    Shaped (Graph.ofTree rivalMappings).1 (Graph.ofTree rivalMappings).2 ∧
    ∃ h id,
      property? (Graph.ofTree rivalMappings).1 (Graph.ofTree rivalMappings).2 "Pet"
        (.text "kind") = some id ∧
      propagate (Graph.ofTree rivalMappings).1 (Graph.ofTree rivalMappings).2 =
        ⟨[⟨.text "bird", "Bird"⟩], .ok h⟩ ∧
      Enumerates (Graph.ofTree rivalMappings).1 id (.text "stray") h := by
  have unshared := Graph.unshared_ofTree rivalMappings
  have whole := Graph.whole_ofTree rivalMappings
  have shaped : Shaped (Graph.ofTree rivalMappings).1 (Graph.ofTree rivalMappings).2 := by
    decide +kernel
  have listed : assignments (Graph.ofTree rivalMappings).1 (Graph.ofTree rivalMappings).2 =
      [⟨.text "Pet", .text "kind", .text "cat", .text "#/components/schemas/Pet"⟩,
        ⟨.text "Pet", .text "kind", .text "dog", .text "#/components/schemas/Pet"⟩,
        ⟨.text "Pet", .text "kind", .text "bird", .text "#/components/schemas/Bird"⟩] ++
      ⟨.text "Stray", .text "kind", .text "stray", .text "#/components/schemas/Pet"⟩ :: [] := by
    decide +kernel
  have all : ∀ a ∈ assignments (Graph.ofTree rivalMappings).1 (Graph.ofTree rivalMappings).2,
      ∃ name, a.Targets name := by
    have some : ∀ a ∈ assignments (Graph.ofTree rivalMappings).1 (Graph.ofTree rivalMappings).2,
        a.target?.isSome = true := by decide +kernel
    intro a member
    obtain ⟨name, target⟩ := Option.isSome_iff_exists.mp (some a member)
    exact ⟨name, Assignment.target?_eq_some_iff.mp target⟩
  have unknown : (assignments (Graph.ofTree rivalMappings).1
      (Graph.ofTree rivalMappings).2).filterMap (unknownTarget? (Graph.ofTree rivalMappings).1
      (Graph.ofTree rivalMappings).2) = [⟨.text "bird", "Bird"⟩] := by decide +kernel
  obtain ⟨id, here⟩ : ∃ id, property? (Graph.ofTree rivalMappings).1
      (Graph.ofTree rivalMappings).2 "Pet" (.text "kind") = some id :=
    Option.isSome_iff_exists.mp (by decide +kernel)
  obtain ⟨-, -, succeeds⟩ := propagate_effect unshared whole shaped
  obtain ⟨h, success, written, -⟩ := succeeds all
  have last := written "Pet" (.text "kind") id here _ _ _ listed (by decide)
    ⟨_, rfl, by decide⟩ (by simp)
  exact ⟨unshared, whole, shaped, h, id, here, by rw [success, unknown], last⟩

/-- A mapping with a number for a reference. -/
def longReference : Tree :=
  .mapping [(.text "components", .mapping [(.text "schemas", .mapping [
    (.text "Pet", .mapping [
      (.text "discriminator", .mapping [
        (.text "mapping", .mapping [(.text "cat", .scalar (.int textLimit))])])])])])]

/-- A value that refers to no schema is not told of if it has no text. -/
theorem number_too_long_to_refuse :
    (Graph.ofTree longReference).1.Unshared (Graph.ofTree longReference).2 ∧
    Shaped (Graph.ofTree longReference).1 (Graph.ofTree longReference).2 ∧
    (∃ a ∈ assignments (Graph.ofTree longReference).1 (Graph.ofTree longReference).2,
      ∀ name, ¬a.Targets name) ∧
    ∀ f, (propagate (Graph.ofTree longReference).1 (Graph.ofTree longReference).2).result ≠
      .error (.failure f) := by
  have untold : (propagate (Graph.ofTree longReference).1 (Graph.ofTree longReference).2).result =
      .error (.malformed .numberTooLong) := by decide +kernel
  have shaped : Shaped (Graph.ofTree longReference).1 (Graph.ofTree longReference).2 := by
    decide +kernel
  refine ⟨Graph.unshared_ofTree longReference, shaped, ?_, fun f same => ?_⟩
  · refine ⟨⟨.text "Pet", .null, .text "cat", .scalar (.int textLimit)⟩, by decide +kernel, ?_⟩
    intro name targets
    cases targets
  · cases untold.symm.trans same

end TypedClient.Discriminator
