import TypedClient.Model
import TypedClient.Proofs.Document.Copy
import TypedClient.Proofs.Payload.Union
import TypedClient.Proofs.Reference.Mention
import TypedClient.Proofs.Schema.References

/-!
# What models refer to

The declaration of a model refers to the generated types that its component refers to: a schema by
its form, a parameter by its schema, a response or request body by the schema of its preferred
content. The model imports these names, except its own and those that are empty or built in.
-/
namespace TypedClient

namespace Schema

theorem not_refers_of_entries? {g : Graph} {v : Value} (none : g.entries? v = none) (name : String) :
    ¬Refers g v name := by
  intro refers
  cases refers with
  | here stated parsed =>
    rw [Graph.fields, none] at stated
    cases stated
  | inside form member refers =>
    rw [Form.of?, none] at form
    cases form
    cases member

theorem mem_imports_of_resolveReference {g : Graph} {v : Value} {p : String} {r : Resolved}
    (success : resolveReference (g.fields v) p = .ok r) (name : String) :
    name ∈ r.imports ↔ ∃ t c, (g.fields v).field "$ref" = .text t ∧
      Reference.parse? t = some c ∧ c.typeName = name := by
  obtain ⟨t, text, success⟩ := Except.bind_eq_ok success
  obtain ⟨c, known, success⟩ := Except.bind_eq_ok success
  obtain rfl := Except.ok.inj success
  have parsed : Reference.parse? t = some c := by
    unfold component at known
    split at known <;> cases known
    assumption
  have stated := Value.asReference_eq_ok text
  rw [List.mem_singleton]
  constructor
  · rintro rfl
    exact ⟨t, c, stated, parsed, rfl⟩
  · rintro ⟨t', c', stated', parsed', rfl⟩
    cases stated.symm.trans stated'
    cases parsed.symm.trans parsed'
    rfl

end Schema

/-- A component of a document. -/
structure Component where
  ns : Namespace
  key : Scalar
  value : Value
  deriving DecidableEq, Repr

/-- How a component is referred to. -/
def Component.reference (c : Component) : Reference := ⟨c.ns, c.key.display⟩

/-- The type that a response or request body contributes refers to the generated type of this
name. -/
inductive Payload.Refers (g : Graph) (item : Value) : String → Prop
  | reference {t : String} {r : Reference} (stated : (g.fields item).field "$ref" = .text t)
    (parsed : Reference.parse? t = some r) : Refers g item r.typeName
  | content {m : MediaType} {media : Value} {name : String}
    (inline : g.truthy ((g.fields item).field "$ref") = false)
    (preferred : Contribution.preferred? (g.fields ((g.fields item).field "content")) =
      some (m, media))
    (refers : Schema.Refers g ((g.fields media).field "schema") name) : Refers g item name

section Payload

variable {g : Graph} {item : Value}

/-- Content contributes the type of the schema of its preferred media type, if it states one. -/
theorem Contribution.ofContent_cases {v : Value} {p : String} {c : Contribution}
    (success : ofContent g (g.fields v) p = .ok c) :
    (c = unknown ∧ ∀ m media, preferred? (g.fields v) = some (m, media) →
      (g.fields media).field "schema" = .null) ∨
    ∃ m media q r, preferred? (g.fields v) = some (m, media) ∧
      Schema.resolve g ((g.fields media).field "schema") q = .ok r ∧
      c = ⟨r.text, some m, r.imports⟩ := by
  unfold ofContent at success
  cases preferred : preferred? (g.fields v) with
  | none =>
    rw [preferred] at success
    exact .inl ⟨(Except.ok.inj success).symm, nofun⟩
  | some e =>
    obtain ⟨m, media⟩ := e
    rw [preferred] at success
    simp only [← Graph.field_fields] at success
    split at success
    · next null =>
      refine .inl ⟨(Except.ok.inj success).symm, fun m' media' same => ?_⟩
      cases same
      exact null
    · obtain ⟨r, resolves, success⟩ := Except.bind_eq_ok success
      exact .inr ⟨m, media, _, r, rfl, resolves, (Except.ok.inj success).symm⟩

/-- An item that is not missing contributes its reference or else its content. -/
theorem Contribution.ofItem?_cases {p : String} {c : Option Contribution}
    (success : ofItem? g p item = .ok c) :
    (g.fields item = [] ∧ c = none) ∨
    (g.truthy ((g.fields item).field "$ref") = true ∧ ∃ r,
      Schema.resolveReference (g.fields item) p = .ok r ∧ c = some ⟨r.text, none, r.imports⟩) ∨
    (g.truthy ((g.fields item).field "$ref") = false ∧ ∃ c',
      ofContent g (g.fields ((g.fields item).field "content")) p = .ok c' ∧ c = some c') := by
  unfold ofItem? at success
  split at success
  · next missing =>
    exact .inl ⟨Graph.fields_of_not_truthy (by simpa using missing), (Except.ok.inj success).symm⟩
  · obtain ⟨es, entries, success⟩ := Except.bind_eq_ok success
    rw [← Graph.fields_of_entries entries] at success
    split at success
    · next given =>
      obtain ⟨r, reference, success⟩ := Except.bind_eq_ok success
      exact .inr (.inl ⟨given, r, reference, (Except.ok.inj success).symm⟩)
    · next inline =>
      obtain ⟨content, optional, success⟩ := Except.bind_eq_ok success
      obtain ⟨c', stated, success⟩ := Except.bind_eq_ok success
      rw [← Graph.fields_of_optionalEntries optional] at stated
      exact .inr (.inr ⟨by simpa using inline, c', stated, (Except.ok.inj success).symm⟩)

theorem Contribution.mem_imports_of_ofContent {v : Value} {p : String} {c : Contribution}
    (success : ofContent g (g.fields v) p = .ok c) (name : String) :
    name ∈ c.imports ↔ ∃ m media, preferred? (g.fields v) = some (m, media) ∧
      Schema.Refers g ((g.fields media).field "schema") name := by
  rcases ofContent_cases success with ⟨rfl, null⟩ | ⟨m, media, q, r, preferred, resolves, rfl⟩
  · refine iff_of_false List.not_mem_nil ?_
    rintro ⟨m, media, preferred, refers⟩
    rw [null m media preferred] at refers
    exact Schema.not_refers_of_entries? rfl name refers
  · simp only [Schema.mem_imports_iff resolves, preferred, Option.some.injEq, Prod.mk.injEq]
    constructor
    · exact fun refers => ⟨m, media, ⟨rfl, rfl⟩, refers⟩
    · rintro ⟨_, _, ⟨rfl, rfl⟩, refers⟩
      exact refers

/-- What an item contributes uses the names that the item refers to; a missing item has none. -/
theorem Contribution.mem_imports_of_ofItem? {p : String} {c : Option Contribution}
    (success : ofItem? g p item = .ok c) (name : String) :
    (∃ c' ∈ c, name ∈ c'.imports) ↔ Payload.Refers g item name := by
  rcases ofItem?_cases success with ⟨fields, rfl⟩ | ⟨given, r, reference, rfl⟩ |
    ⟨inline, c', stated, rfl⟩
  · refine iff_of_false (by simp) fun refers => ?_
    cases refers with
    | reference stated parsed =>
      rw [fields] at stated
      cases stated
    | content inline preferred refers =>
      have content : g.fields ((g.fields item).field "content") = [] := by
        rw [fields]
        rfl
      rw [content] at preferred
      cases preferred
  · simp only [Option.mem_def, Option.some.injEq, exists_eq_left']
    rw [Schema.mem_imports_of_resolveReference reference]
    constructor
    · rintro ⟨t, c, stated, parsed, rfl⟩
      exact .reference stated parsed
    · intro refers
      cases refers with
      | reference stated parsed => exact ⟨_, _, stated, parsed, rfl⟩
      | content inline preferred refers =>
        rw [given] at inline
        cases inline
  · simp only [Option.mem_def, Option.some.injEq, exists_eq_left']
    rw [mem_imports_of_ofContent stated]
    constructor
    · rintro ⟨m, media, preferred, refers⟩
      exact .content inline preferred refers
    · intro refers
      cases refers with
      | reference stated parsed =>
        rw [stated, Reference.truthy_of_parse? parsed] at inline
        cases inline
      | content inline preferred refers => exact ⟨_, _, preferred, refers⟩

theorem Payload.mem_imports_iff {items : List (String × Value)} {payload : Payload}
    (success : ofItems g items = .ok payload) (name : String) :
    name ∈ payload.imports ↔ ∃ item ∈ items, Payload.Refers g item.2 name := by
  obtain ⟨cs, rfl, members⟩ := exists_contributions success
  rw [ofContributions, Text.mem_distinct, List.mem_flatMap]
  constructor
  · rintro ⟨c, contributed, named⟩
    obtain ⟨item, member, contributes⟩ := (members c).mp contributed
    exact ⟨item, member, (Contribution.mem_imports_of_ofItem? contributes name).mp ⟨c, rfl, named⟩⟩
  · rintro ⟨item, member, refers⟩
    obtain ⟨c, succeeds⟩ := exists_ofItem? success item member
    obtain ⟨c', rfl, named⟩ := (Contribution.mem_imports_of_ofItem? succeeds name).mpr refers
    exact ⟨c', (members c').mpr ⟨item, member, succeeds⟩, named⟩

/-- The text of a union is empty only if the text of each of its types is. -/
theorem Payload.text_eq_empty {cs : List Contribution} (empty : (ofContributions cs).text = "") :
    ∀ c ∈ cs, c.text = "" := by
  intro c member
  have value : c.text ∈ (ofContributions cs).values := mem_values_ofContributions.mpr ⟨c, member, rfl⟩
  have inside : c.text.toList <:+: (ofContributions cs).text.toList := Text.infix_joinWith value
  rw [empty] at inside
  exact String.toList_inj.mp (List.infix_nil.mp inside)

/-- What has an empty text refers to no type that has a name. -/
theorem Contribution.eq_empty_of_mem_imports {p : String} {c : Contribution}
    (success : ofItem? g p item = .ok (some c)) (empty : c.text = "") :
    ∀ name ∈ c.imports, name = "" := by
  rcases ofItem?_cases success with ⟨-, same⟩ | ⟨-, r, reference, same⟩ | ⟨-, c', stated, same⟩
  · cases same
  · obtain rfl := Option.some.inj same
    obtain ⟨t, -, reference⟩ := Except.bind_eq_ok reference
    obtain ⟨component, -, reference⟩ := Except.bind_eq_ok reference
    obtain rfl := Except.ok.inj reference
    intro name named
    exact (List.mem_singleton.mp named).trans empty
  · obtain rfl := Option.some.inj same
    rcases ofContent_cases stated with ⟨rfl, -⟩ | ⟨m, media, q, r, -, resolves, rfl⟩
    · exact absurd empty (by decide)
    · exact Schema.eq_empty_of_mem_imports resolves empty

theorem Payload.eq_empty_of_mem_imports {items : List (String × Value)} {payload : Payload}
    (success : ofItems g items = .ok payload) (empty : payload.text = "") :
    ∀ name ∈ payload.imports, name = "" := by
  obtain ⟨cs, rfl, members⟩ := exists_contributions success
  intro name named
  obtain ⟨c, contributed, named⟩ := List.mem_flatMap.mp (Text.mem_distinct.mp named)
  obtain ⟨item, -, contributes⟩ := (members c).mp contributed
  exact Contribution.eq_empty_of_mem_imports contributes (text_eq_empty empty c contributed) name named

end Payload

namespace Model

theorem mem_neededImports_iff {exclude : Option String} {names : List String} {name : String} :
    name ∈ neededImports exclude names ↔ name ∈ names ∧ name ≠ "" ∧ some name ≠ exclude ∧
      Naming.isBuiltInType name = false := by
  rw [neededImports, Text.mem_distinct, List.mem_filter]
  simp [and_assoc]

/-- The declaration of the model of a component refers to the generated type of this name. -/
def Refers (g : Graph) (ns : Namespace) (v : Value) (name : String) : Prop :=
  match ns with
  | .schemas => Schema.Refers g v name
  | .responses | .requestBodies => Payload.Refers g v name
  | .parameters =>
    if g.truthy ((g.fields v).field "$ref") then Schema.Refers g v name
    else Schema.Refers g ((g.fields v).field "schema") name

variable {g : Graph} {v : Value}

theorem mem_imports_of_parameterType {p : String} {r : Resolved}
    (success : parameterType g p v = .ok r) (name : String) :
    name ∈ r.imports ↔ Refers g .parameters v name := by
  unfold parameterType at success
  unfold Refers
  split at success
  · next absent =>
    cases success
    have fields : g.fields v = [] := by rw [Graph.fields, absent]; rfl
    have inline : ¬g.truthy (Entries.field [] "$ref") = true := Bool.false_ne_true
    rw [fields, if_neg inline]
    exact iff_of_false List.not_mem_nil (Schema.not_refers_of_entries? rfl name)
  · next es entries =>
    rw [Graph.fields_of_entries? entries]
    split at success
    · next given =>
      rw [if_pos given]
      exact Schema.mem_imports_iff success name
    · next inline =>
      rw [if_neg inline]
      exact Schema.mem_imports_iff success name

theorem of_ofSchema_eq_ok {key : String} {m : Model} (success : ofSchema g key v = .ok m) :
    ∃ r, Schema.resolve g v ("#/components/schemas/" ++ key) = .ok r ∧
      m.name = Naming.pascalCase key ∧ m.imports = neededImports (some m.name) r.imports := by
  unfold ofSchema at success
  obtain ⟨r, resolves, success⟩ := Except.bind_eq_ok success
  refine ⟨r, resolves, ?_⟩
  split at success
  · obtain rfl := Except.ok.inj success
    exact ⟨rfl, rfl⟩
  · split at success <;> obtain rfl := Except.ok.inj success <;> exact ⟨rfl, rfl⟩

/-- The model of a component has the name that references to the component are written as. It imports
what its declaration refers to, except its own name and names that are empty or built in. -/
theorem of_ofComponent {ns : Namespace} {key : Scalar} {m : Model}
    (success : ofComponent g ns key v = .ok m) :
    (∃ name, key = .text name ∧ m.name = Reference.typeName ⟨ns, name⟩) ∧
      ∀ name, name ∈ m.imports ↔ Refers g ns v name ∧ name ≠ "" ∧ name ≠ m.name ∧
        Naming.isBuiltInType name = false := by
  unfold ofComponent at success
  cases ns with
  | schemas =>
    obtain ⟨key', known, success⟩ := Except.bind_eq_ok success
    cases Value.asName_eq_ok known
    obtain ⟨r, resolves, named, imports⟩ := of_ofSchema_eq_ok success
    refine ⟨⟨key', rfl, named.trans String.append_empty.symm⟩, fun name => ?_⟩
    rw [imports, mem_neededImports_iff, Schema.mem_imports_iff resolves]
    simp [Refers]
  | parameters =>
    obtain ⟨p, -, success⟩ := Except.bind_eq_ok success
    obtain ⟨r, resolves, success⟩ := Except.bind_eq_ok success
    obtain ⟨key', known, success⟩ := Except.bind_eq_ok success
    cases Value.asName_eq_ok known
    obtain rfl := Except.ok.inj success
    refine ⟨⟨key', rfl, rfl⟩, fun name => ?_⟩
    rw [ofText, mem_neededImports_iff, mem_imports_of_parameterType resolves]
    simp
  | responses | requestBodies =>
    obtain ⟨p, -, success⟩ := Except.bind_eq_ok success
    obtain ⟨payload, types, success⟩ := Except.bind_eq_ok success
    obtain ⟨key', known, success⟩ := Except.bind_eq_ok success
    cases Value.asName_eq_ok known
    obtain rfl := Except.ok.inj success
    refine ⟨⟨key', rfl, rfl⟩, fun name => ?_⟩
    rw [ofText, mem_neededImports_iff, Payload.mem_imports_iff types]
    simp [Refers]

/-- The components of a document, in the order of their models. -/
def componentsOf (g : Graph) (document : Value) : List Component :=
  sectionOrder.flatMap fun ns => (g.components document ns).map fun e => ⟨ns, e.1, e.2⟩

/-- The models of the components are those of each of them, in order. -/
theorem each_of_ofComponents {document : Value} {models : List Model}
    (success : ofComponents g (g.fields ((g.fields document).field "components")) = .ok models) :
    List.Forall₂ (fun c m => ofComponent g c.ns c.key c.value = .ok m)
      (componentsOf g document) models := by
  obtain ⟨sections, each, success⟩ := Except.bind_eq_ok success
  cases success
  rw [componentsOf, List.flatMap_def]
  refine List.rel_flatten (List.forall₂_map_left_iff.mpr ((forall₂_of_mapM each).imp ?_))
  intro ns part success
  obtain ⟨es, found, success⟩ := Except.bind_eq_ok success
  rw [List.forall₂_map_left_iff, Graph.components, Graph.fields_of_optionalEntries found]
  exact forall₂_of_mapM success

end Model

end TypedClient
