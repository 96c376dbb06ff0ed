import TypedClient.Proofs.Client.Compilation
import TypedClient.Proofs.Discriminator.Record

/-!
# Literals in declarations

The models of a document are those of its components once the literals of discriminators are in
place. In a JSON document such a literal is all that is left of its property in the declaration of a
record, and every property without a literal stands there as it would stand in the document as it was.
-/
namespace TypedClient

namespace Model

/-- How a record with these members is declared; null is added to it if it is to be. -/
def recordDeclaration (name : String) (members : List String) (null : Bool) : String :=
  if null then aliasText name (Schema.recordText members ++ " | null")
  else interfaceText name (Schema.recordText members)

section Record

variable {g : Graph} {v : Value} (record : Schema.IsRecord g v)

include record

theorem isInterfaceCandidate_eq : isInterfaceCandidate g v = !Schema.isNullable g v := by
  have type : (decide ((g.fields v).field "type" = .null) ||
      ((g.fields v).field "type").isText "object") = true := by
    rcases record.type with absent | object
    · rw [absent]
      rfl
    · rw [object]
      rfl
  simp only [isInterfaceCandidate, record.entries?, record.inline, type, record.composition?,
    Option.isNone_none, Bool.and_true, Bool.not_false, Bool.true_and]
  rfl

/-- The model of a record declares it. -/
theorem declaration_of_ofSchema {name : String} {m : Model} (success : ofSchema g name v = .ok m) :
    ∃ required types, Schema.requiredNames g (g.fields v) = .ok required ∧
      List.Forall₂ (fun e type => (∃ name, e.1 = .text name) ∧
        ∀ place, (Schema.resolve g e.2 place).map (·.text) = .ok type) (Schema.properties g v) types ∧
      m.name = Naming.pascalCase name ∧
      m.declaration = recordDeclaration (Naming.pascalCase name)
        (Schema.memberTexts required (Schema.properties g v) types) (Schema.isNullable g v) := by
  obtain ⟨r, resolves, success⟩ := Except.bind_eq_ok success
  obtain ⟨required, types, requires, each, text, single, literals⟩ := record.resolved resolves
  have enumeration : r.isEnumeration = false := by rw [Resolved.isEnumeration, literals]; rfl
  have interface : (isInterfaceCandidate g v && TypeText.isRecord r.text) =
      !Schema.isNullable g v := by rw [isInterfaceCandidate_eq record, single, Bool.and_self]
  rw [interface, enumeration] at success
  refine ⟨required, types, requires, each, ?_⟩
  unfold recordDeclaration
  rw [Schema.nullText] at text
  cases null : Schema.isNullable g v with
  | false =>
    rw [null] at success
    rw [Schema.isNullable] at null
    rw [null, if_neg Bool.false_ne_true, String.append_empty] at text
    cases success
    exact ⟨rfl, by rw [text, if_neg Bool.false_ne_true]⟩
  | true =>
    rw [null] at success
    rw [Schema.isNullable] at null
    rw [null, if_pos rfl] at text
    cases success
    exact ⟨rfl, by rw [text, if_pos rfl]⟩

end Record

end Model

namespace Client

variable {g h : Graph} {document : Value}

/-- The models of the schemas come first, in their order. -/
theorem exists_model_of_schema {models : List Model} (success : componentModels g document = .ok models)
    {i : Nat} {name : String} {schema : Value}
    (here : (g.components document .schemas)[i]? = some (.text name, schema)) :
    ∃ m, models[i]? = some m ∧ Model.ofSchema g name schema = .ok m := by
  have each := each_of_componentModels success
  have first : (Model.componentsOf g document)[i]? = some ⟨.schemas, .text name, schema⟩ := by
    have bound := (List.getElem?_eq_some_iff.mp here).1
    rw [Model.componentsOf, Model.sectionOrder, List.flatMap_cons,
      List.getElem?_append_left (by rwa [List.length_map]), List.getElem?_map, here]
    rfl
  obtain ⟨m, found, model⟩ := exists_getElem?_of_forall₂ each first
  obtain ⟨name', named, model⟩ := Except.bind_eq_ok model
  cases named
  exact ⟨m, found, model⟩

open Discriminator (Assignment assignments lastAssigned)

/-- If the client of a JSON document is generated and a mapping assigns to a property of a record that
is of a string kind, the model of the record declares that property as the last literal that is
assigned to it, with null added where the property is nullable. Every property of the record that
nothing is assigned to is declared as what it stands for in the document without literals. -/
theorem literals_reach_declarations {transformer : Option Transformer} {validator : Option Validator}
    {c : Client} (success : (generate g document transformer validator).result = .ok c)
    {g' : Graph} {document' : Value} (start : transformed g document transformer = .ok (g', document'))
    (json : g'.IsJson document') {i : Nat} {name : String} {schema : Value}
    (here : (g'.components document' .schemas)[i]? = some (.text name, schema))
    (record : Schema.IsRecord g' schema) {a : Assignment} (member : a ∈ assignments g' document')
    (targets : a.Targets name) {p : String} (stated : a.property = .text p) {v : Value}
    (property : (Scalar.text p, v) ∈ Schema.properties g' schema) (string : Schema.IsString g' v) :
    ∃ l m required types, lastAssigned g' document' name p = some (.text l) ∧
      c.models[i]? = some m ∧ m.name = Naming.pascalCase name ∧
      Schema.requiredNames g' (g'.fields schema) = .ok required ∧
      m.declaration = Model.recordDeclaration (Naming.pascalCase name)
        (Schema.memberTexts required (Schema.properties g' schema) types)
        (Schema.isNullable g' schema) ∧
      List.Forall₂ (fun e type =>
        (e.1 = .text p → type = TypeText.literal l ++ Schema.nullText g' (g'.fields v)) ∧
        ((∀ b ∈ assignments g' document', b.Targets name → ¬b.Names e.1) →
          ∀ place, (Schema.resolve g' e.2 place).map (·.text) = .ok type))
        (Schema.properties g' schema) types := by
  obtain ⟨g'', document'', report, h, title, models, operations, start', -, -, propagated, made, rfl⟩ :=
    generate_eq_ok_iff.mp success
  cases start.symm.trans start'
  have schemas := List.mem_of_getElem? here
  have unshared := json.unshared
  have whole := json.whole
  have settles := Discriminator.settles_of_success unshared whole propagated
  have place := Discriminator.addressed_of_mem_components schemas
  obtain ⟨l, last⟩ := Discriminator.exists_lastAssigned json member targets stated
  rw [← settles.components_eq unshared whole] at here
  obtain ⟨m, found, model⟩ := exists_model_of_schema made.models here
  obtain ⟨required, types, requires, each, called, declaration⟩ :=
    Model.declaration_of_ofSchema (settles.isRecord unshared whole place record) model
  rw [settles.requiredNames_eq unshared whole place] at requires
  rw [settles.properties_eq unshared whole place] at each declaration
  rw [settles.isNullable_eq unshared whole place] at declaration
  -- what is left is the text of each property, which the declaration has from the settled document
  refine ⟨l, m, required, types, last, ?_, called, requires, declaration, ?_⟩
  · rw [assemble, List.getElem?_append_left (List.getElem?_eq_some_iff.mp found).1, found]
  · refine forall₂_imp_mem each fun ⟨key, w⟩ inside type _ resolves =>
      ⟨fun same => ?_, fun never q => ?_⟩
    · obtain rfl : key = .text p := same
      have first := Discriminator.lookup?_properties schemas property json
      cases first.symm.trans (Discriminator.lookup?_properties schemas inside json)
      have literal := Discriminator.resolve_assigned schemas property json propagated string last ""
      exact Except.ok.inj ((resolves.2 "").symm.trans literal)
    · have address := place.field_entry inside
      rw [← resolves.2 q, Discriminator.resolve_of_never unshared whole propagated address never]

/-- Cats, for which pets have two literals. -/
def kindsOfPets : Tree :=
  .mapping [(.text "openapi", .scalar (.text "3.0.0")),
    (.text "components", .mapping [(.text "schemas", .mapping [
      (.text "Pet", .mapping [
        (.text "discriminator", .mapping [
          (.text "propertyName", .scalar (.text "kind")),
          (.text "mapping", .mapping [
            (.text "cat", .scalar (.text "#/components/schemas/Cat")),
            (.text "kitten", .scalar (.text "#/components/schemas/Cat"))])])]),
      (.text "Cat", .mapping [
        (.text "type", .scalar (.text "object")),
        (.text "required", .list [.scalar (.text "kind")]),
        (.text "properties", .mapping [
          (.text "kind", .mapping [
            (.text "type", .scalar (.text "string")),
            (.text "nullable", .scalar (.bool true)),
            (.text "enum", .list [.scalar (.text "animal")])]),
          (.text "name", .mapping [(.text "type", .scalar (.text "string"))])])])])])]

theorem cats_are_kittens_or_null :
    (Graph.ofTree kindsOfPets).1.IsJson (Graph.ofTree kindsOfPets).2 ∧
    ∃ c m, (generate (Graph.ofTree kindsOfPets).1 (Graph.ofTree kindsOfPets).2 none none).result =
        .ok c ∧ c.models[1]? = some m ∧
      m.declaration = "export interface Cat \x7bkind: 'kitten' | null; name?: string\x7d" := by
  have json : (Graph.ofTree kindsOfPets).1.IsJson (Graph.ofTree kindsOfPets).2 :=
    Graph.isJson_ofTree (by decide +kernel)
  obtain ⟨c, success⟩ : ∃ c, (generate (Graph.ofTree kindsOfPets).1 (Graph.ofTree kindsOfPets).2 none
      none).result = .ok c := Except.exists_ok (by decide +kernel)
  have here : ((Graph.ofTree kindsOfPets).1.components (Graph.ofTree kindsOfPets).2 .schemas)[1]? =
      some (.text "Cat", .node 8) := by decide +kernel
  have properties : Schema.properties (Graph.ofTree kindsOfPets).1 (.node 8) =
      [(.text "kind", .node 5), (.text "name", .node 6)] := by decide +kernel
  have record : Schema.IsRecord (Graph.ofTree kindsOfPets).1 (.node 8) := by
    refine ⟨by decide +kernel, .inr (by decide +kernel), fun c => ?_, by decide +kernel⟩
    cases c <;> decide +kernel
  have string : Schema.IsString (Graph.ofTree kindsOfPets).1 (.node 5) :=
    ⟨by decide +kernel, ⟨"string", by decide, by decide +kernel⟩, by decide +kernel⟩
  have member : ⟨.text "Pet", .text "kind", .text "cat", .text "#/components/schemas/Cat"⟩ ∈
      assignments (Graph.ofTree kindsOfPets).1 (Graph.ofTree kindsOfPets).2 := by decide +kernel
  obtain ⟨l, m, required, types, last, found, -, requires, declaration, each⟩ :=
    literals_reach_declarations success rfl json here record member (by decide) rfl
      (by rw [properties]; exact List.mem_cons_self) string
  refine ⟨json, c, m, success, found, ?_⟩
  have kitten : lastAssigned (Graph.ofTree kindsOfPets).1 (Graph.ofTree kindsOfPets).2 "Cat" "kind" =
      some (.text "kitten") := by decide +kernel
  have needed : Schema.requiredNames (Graph.ofTree kindsOfPets).1
      ((Graph.ofTree kindsOfPets).1.fields (.node 8)) = .ok [.text "kind"] := by decide +kernel
  have nullable : Schema.nullText (Graph.ofTree kindsOfPets).1
      ((Graph.ofTree kindsOfPets).1.fields (.node 5)) = " | null" := by decide +kernel
  have plain : (Schema.resolve (Graph.ofTree kindsOfPets).1 (.node 6) "#").map (·.text) =
      .ok "string" := by decide +kernel
  have unnamed : ∀ b ∈ assignments (Graph.ofTree kindsOfPets).1 (Graph.ofTree kindsOfPets).2,
      b.property ≠ .text "name" := by decide +kernel
  cases last.symm.trans kitten
  cases requires.symm.trans needed
  rw [properties] at declaration each
  rcases each with _ | ⟨first, _ | ⟨second, _ | _⟩⟩
  have other := second.2 (fun b inside _ names =>
    unnamed b inside (Discriminator.names_text_iff.mp names)) "#"
  cases plain.symm.trans other
  rw [declaration, first.1 rfl, nullable]
  decide +kernel

end Client

end TypedClient
