import TypedClient.Proofs.Discriminator.Restriction
import TypedClient.Proofs.Operation.Imports
import TypedClient.Proofs.Output.Files

/-!
# Imports of clients

What a client imports is mentioned in the document that it is generated from, or is the model of a
response that is a record. Every component has a model, so no import dangles but one that comes from
a reference to a component that the document does not have.
-/
namespace TypedClient

theorem Run.andThen_eq_ok {α β : Type} {r : Run α} {next : α → Run β} {b : β}
    (success : (r.andThen next).result = .ok b) :
    ∃ a, r.result = .ok a ∧ (next a).result = .ok b := by
  unfold andThen at success
  split at success
  · cases success
  · next a here => exact ⟨a, here, success⟩

namespace Client

variable {g : Graph} {document : Value}

/-- The document that a client is generated from. -/
def transformed (g : Graph) (document : Value) (transformer : Option Transformer) :
    Result (Graph × Value) :=
  match transformer with
  | some t => t g document
  | none => .ok (g, document)

/-! ### Operations -/

theorem within_of_mem_routeSlots {components item : Value} {route : Scalar} {slot : Slot}
    (inside : g.Covers document components) (stated : g.Covers document item)
    (member : slot ∈ routeSlots g components route item) : slot.Within g document := by
  unfold routeSlots at member
  split at member
  · cases member
  · next es entries =>
    obtain ⟨⟨key, operation⟩, listed, here⟩ := List.mem_filterMap.mp member
    rw [← Graph.fields_of_entries? entries] at listed here
    split at here
    · obtain ⟨-, same⟩ := Option.ite_none_right_eq_some.mp here
      obtain rfl := Option.some.inj same
      exact {
        operation := stated.trans (.entry listed)
        shared := fun vs shared v member =>
          stated.trans (.trans (.field "parameters") (.optionalElement shared member))
        components := inside }
    · cases here

theorem within_of_mem_slots {components paths : Value} {slot : Slot}
    (inside : g.Covers document components) (stated : g.Covers document paths)
    (member : slot ∈ slots g components (g.fields paths)) : slot.Within g document := by
  obtain ⟨e, listed, member⟩ := List.mem_flatMap.mp member
  exact within_of_mem_routeSlots inside (stated.trans (.entry listed)) member

/-- Every operation of a run is compiled from a slot, whichever identifiers have been claimed. -/
theorem exists_slot_of_compileAll {claimed : List Scalar} {l : List Slot} {os : List Operation}
    (success : (compileAll g claimed l).result = .ok os) :
    ∀ o ∈ os, ∃ slot ∈ l, ∃ id,
      Operation.compileClaimed g slot (g.fields slot.operation) id = .ok o := by
  induction l generalizing claimed os with
  | nil =>
    cases success
    simp
  | cons slot rest ih =>
    obtain ⟨o, first, success⟩ := Run.andThen_eq_ok success
    obtain ⟨others, following, success⟩ := Run.andThen_eq_ok success
    cases success
    intro o' member
    rcases List.mem_cons.mp member with rfl | member
    · refine ⟨slot, List.mem_cons_self, ?_⟩
      simp only at first
      split at first
      · cases first
      · next es entries =>
        split at first
        · cases first
        · next id _ =>
          rw [← Graph.fields_of_entries entries] at first
          exact ⟨id, first⟩
    · obtain ⟨slot', listed, compiled⟩ := ih following o' member
      exact ⟨slot', List.mem_cons_of_mem _ listed, compiled⟩

/-- An import of the interface is the model of a response, or mentioned in the document; and so is
each import of such a model. -/
theorem of_compileApi {api : Api} {models : List Model}
    (success : (compileApi g document).result = .ok (api, models)) :
    (∀ n ∈ api.imports, (∃ m ∈ models, m.name = n) ∨ g.MentionsType document n) ∧
      ∀ m ∈ models, (∃ id, m.name = Naming.pascalCase id ++ "Response") ∧
        ∀ n ∈ m.imports, g.MentionsType document n := by
  obtain ⟨⟨heading, found⟩, start, success⟩ := Run.andThen_eq_ok success
  simp only at success
  obtain ⟨operations, compiled, finished⟩ := Run.andThen_eq_ok success
  obtain ⟨fields, entries, start⟩ := Except.bind_eq_ok start
  obtain ⟨title', -, start⟩ := Except.bind_eq_ok start
  obtain ⟨paths, listed, start⟩ := Except.bind_eq_ok start
  obtain ⟨rfl, rfl⟩ := Prod.mk.inj (Except.ok.inj start)
  rw [← Graph.fields_of_entries entries] at listed compiled
  rw [← Graph.fields_of_optionalEntries listed] at compiled
  have each : ∀ o ∈ operations,
      (∀ n ∈ o.imports, (∃ m, o.responseModel = some m ∧ m.name = n) ∨ g.MentionsType document n) ∧
        ∀ m, o.responseModel = some m → m.name = Naming.pascalCase o.id ++ "Response" ∧
          ∀ n ∈ m.imports, g.MentionsType document n := by
    intro o member
    obtain ⟨slot, listed, id, compiled⟩ := exists_slot_of_compileAll compiled o member
    have within := within_of_mem_slots (.field "components") (.field "paths") listed
    exact Operation.of_compileClaimed within compiled
  cases finished
  constructor
  · intro n needed
    have needed := Model.mem_of_mem_neededImports needed
    obtain ⟨o, member, needed⟩ := List.mem_flatMap.mp needed
    rcases (each o member).1 n needed with ⟨m, model, named⟩ | mention
    · exact .inl ⟨m, List.mem_filterMap.mpr ⟨o, member, model⟩, named⟩
    · exact .inr mention
  · intro m member
    obtain ⟨o, member, model⟩ := List.mem_filterMap.mp member
    obtain ⟨named, mentions⟩ := (each o member).2 m model
    exact ⟨⟨o.id, named⟩, mentions⟩

/-- The models that stand in a client for its document: all components that the document declares,
and no import that is not mentioned or itself a model. -/
theorem of_ofDocument {report : Option Report} {c : Client}
    (success : (ofDocument g document report).result = .ok c) :
    (∀ r, g.Declares document r → ∃ m ∈ c.models, m.name = r.typeName) ∧
      ∀ n, (n ∈ c.api.imports ∨ ∃ m ∈ c.models, n ∈ m.imports) →
        (∃ m ∈ c.models, m.name = n ∧ ∃ id, m.name = Naming.pascalCase id ++ "Response") ∨
          g.MentionsType document n := by
  obtain ⟨h, discriminated, success⟩ := Run.andThen_eq_ok success
  obtain ⟨models, components, success⟩ := Run.andThen_eq_ok success
  obtain ⟨⟨api, responses⟩, compiled, success⟩ := Run.andThen_eq_ok success
  have restricts := Discriminator.restricts_of_propagate discriminated
  obtain ⟨fields, entries, components⟩ := Except.bind_eq_ok components
  obtain ⟨sections, listed, components⟩ := Except.bind_eq_ok components
  rw [← Graph.fields_of_entries entries] at listed
  rw [← Graph.fields_of_optionalEntries listed] at components
  obtain ⟨declared, ofComponents⟩ := Model.of_ofComponents components
  obtain ⟨ofApi, ofResponses⟩ := of_compileApi compiled
  have unrestricted : ∀ n, h.MentionsType document n → g.MentionsType document n := by
    rintro n ⟨r, mention, named⟩
    exact ⟨r, restricts.mentions document r mention, named⟩
  cases success
  constructor
  · intro r here
    obtain ⟨m, member, named⟩ := declared r (restricts.declares here)
    exact ⟨m, List.mem_append_left _ member, named⟩
  · rintro n (needed | ⟨m, member, needed⟩)
    · rcases ofApi n needed with ⟨m, member, named⟩ | mention
      · exact .inl ⟨m, List.mem_append_right _ member, named, (ofResponses m member).1⟩
      · exact .inr (unrestricted n mention)
    · rcases List.mem_append.mp member with member | member
      · exact .inr (unrestricted n (ofComponents m member n needed))
      · exact .inr (unrestricted n ((ofResponses m member).2 n needed))

/-- No import of a client dangles. Whatever its interface or one of its models imports is the name
of one of its models, so that a file of that name holds a model when all is written and the index
exports it; unless the name is that of a reference in the document to a component that the document
does not declare. Every component that it declares has a model in such a file. -/
theorem no_dangling_import {transformer : Option Transformer} {validator : Option Validator}
    {c : Client} (success : (generate g document transformer validator).result = .ok c) :
    ∃ g' document', transformed g document transformer = .ok (g', document') ∧
      Output.finalText (Output.files c) "models/index.ts" = some (Output.index c.models) ∧
      (∀ r, g'.Declares document' r → ∃ m ∈ c.models, m.name = r.typeName ∧
        Output.finalText (Output.files c) ("models/" ++ r.typeName ++ ".ts") =
          some (Output.model m) ∧
        ("export * from './" ++ r.typeName ++ "'").toList <:+: (Output.index c.models).toList) ∧
      ∀ name, (name ∈ c.api.imports ∨ ∃ m ∈ c.models, name ∈ m.imports) →
        (∃ m ∈ c.models, m.name = name ∧
          Output.finalText (Output.files c) ("models/" ++ name ++ ".ts") = some (Output.model m) ∧
          ("export * from './" ++ name ++ "'").toList <:+: (Output.index c.models).toList) ∨
        ∃ r, r.typeName = name ∧ g'.Mentions document' r ∧ ¬g'.Declares document' r := by
  obtain ⟨⟨g', document'⟩, start, success⟩ := Run.andThen_eq_ok success
  obtain ⟨version, -, success⟩ := Run.andThen_eq_ok success
  obtain ⟨report, -, success⟩ := Run.andThen_eq_ok success
  obtain ⟨declared, imports⟩ := of_ofDocument success
  have written : ∀ m ∈ c.models, m.name ≠ "index" → ∃ m' ∈ c.models, m'.name = m.name ∧
      Output.finalText (Output.files c) ("models/" ++ m.name ++ ".ts") = some (Output.model m') ∧
      ("export * from './" ++ m.name ++ "'").toList <:+: (Output.index c.models).toList := by
    intro m member plain
    obtain ⟨m', member', named, text⟩ := Output.exists_finalText member plain
    exact ⟨m', member', named, text, Output.infix_index member⟩
  have kept : ∀ r, g'.Declares document' r → ∃ m ∈ c.models, m.name = r.typeName ∧
      Output.finalText (Output.files c) ("models/" ++ r.typeName ++ ".ts") = some (Output.model m) ∧
      ("export * from './" ++ r.typeName ++ "'").toList <:+: (Output.index c.models).toList := by
    intro r here
    obtain ⟨m, member, named⟩ := declared r here
    rw [← named]
    refine written m member ?_
    rw [named]
    refine Output.pascalCase_append_ne_index r.name ?_
    cases r.namespace_ <;> decide
  refine ⟨g', document', start, Output.finalText_index c, kept, fun name needed => ?_⟩
  rcases imports name needed with ⟨m, member, rfl, id, named⟩ | ⟨r, mention, rfl⟩
  · refine .inl (written m member ?_)
    rw [named]
    exact Output.pascalCase_append_ne_index id (by decide)
  · by_cases here : g'.Declares document' r
    · exact .inl (kept r here)
    · exact .inr ⟨r, rfl, mention, here⟩

/-- An operation whose response is a record of a pet and its owner. Only the pet is declared. -/
def petShop : Graph :=
  ⟨#[.mapping [(.text "openapi", .text "3.0.3"), (.text "paths", .node 1),
       (.text "components", .node 11)],
     .mapping [(.text "/pets", .node 2)],
     .mapping [(.text "get", .node 3)],
     .mapping [(.text "operationId", .text "findPet"), (.text "responses", .node 4)],
     .mapping [(.text "200", .node 5)],
     .mapping [(.text "content", .node 6)],
     .mapping [(.text "application/json", .node 7)],
     .mapping [(.text "schema", .node 8)],
     .mapping [(.text "properties", .node 9)],
     .mapping [(.text "pet", .node 10), (.text "owner", .node 14)],
     .mapping [(.text "$ref", .text "#/components/schemas/Pet")],
     .mapping [(.text "schemas", .node 12)],
     .mapping [(.text "Pet", .node 13)],
     .mapping [(.text "type", .text "string")],
     .mapping [(.text "$ref", .text "#/components/schemas/Owner")]]⟩

theorem pet_shop_lacks_the_owner :
    ∃ c, (generate petShop (.node 0) none none).result = .ok c ∧
      c.api.imports = ["FindPetResponse"] ∧
      (c.models.map fun m => (m.name, m.imports)) =
        [("Pet", []), ("FindPetResponse", ["Pet", "Owner"])] ∧
      ∃ r, r.typeName = "Owner" ∧ petShop.Mentions (.node 0) r ∧
        ¬petShop.Declares (.node 0) r := by
  have evaluated : ((generate petShop (.node 0) none none).result.toOption.map fun c =>
      (c.api.imports, c.models.map fun m => (m.name, m.imports))) =
      some (["FindPetResponse"], [("Pet", []), ("FindPetResponse", ["Pet", "Owner"])]) := by
    decide +kernel
  cases success : (generate petShop (.node 0) none none).result with
  | error s =>
    rw [success] at evaluated
    cases evaluated
  | ok c =>
    rw [success] at evaluated
    obtain ⟨imports, models⟩ := Prod.mk.inj (Option.some.inj evaluated)
    refine ⟨c, rfl, imports, models, ?_⟩
    obtain ⟨g, document, start, -, -, each⟩ := no_dangling_import success
    cases start
    have names : ∀ m ∈ c.models, (m.name, m.imports) ∈
        [("Pet", []), ("FindPetResponse", ["Pet", "Owner"])] := fun m member =>
      models ▸ List.mem_map_of_mem member
    have last : ("FindPetResponse", ["Pet", "Owner"]) ∈
        c.models.map fun m => (m.name, m.imports) := by
      rw [models]
      decide
    obtain ⟨m, member, same⟩ := List.mem_map.mp last
    have needed : "Owner" ∈ m.imports := by
      rw [(Prod.mk.inj same).2]
      decide
    rcases each "Owner" (.inr ⟨m, member, needed⟩) with ⟨m', member', named, -⟩ | dangling
    · exact absurd (names m' member') (by simp [named])
    · exact dangling

end Client

end TypedClient
