import TypedClient.Proofs.Client.Imports
import TypedClient.Proofs.Document.Copy
import TypedClient.Proofs.Operation.Compilation

/-!
# What a client is made of

Compiling operations one after the other succeeds exactly if each of them compiles alone and no two
of them have one identifier. So the operations of an interface are those of the slots of its document,
one for each and in their order, and a client is made of them and of the models of the components.
-/
namespace TypedClient

theorem Run.andThen_eq_ok_iff {α β : Type} {r : Run α} {next : α → Run β} {b : β} :
    (r.andThen next).result = .ok b ↔ ∃ a, r.result = .ok a ∧ (next a).result = .ok b := by
  refine ⟨Run.andThen_eq_ok, fun ⟨a, first, second⟩ => ?_⟩
  unfold andThen
  rw [first]
  exact second

namespace Client

/-- The models of the components are those of each of them, in order. -/
theorem each_of_componentModels {g : Graph} {document : Value} {models : List Model}
    (success : componentModels g document = .ok models) :
    List.Forall₂ (fun c m => Model.ofComponent g c.ns c.key c.value = .ok m)
      (Model.componentsOf g document) models := by
  obtain ⟨fields, entries, success⟩ := Except.bind_eq_ok success
  obtain ⟨components, listed, success⟩ := Except.bind_eq_ok success
  rw [← Graph.fields_of_entries entries] at listed
  rw [← Graph.fields_of_optionalEntries listed] at success
  exact Model.each_of_ofComponents success

/-- Operations compile one after the other beside claimed identifiers if each compiles alone, all
their identifiers differ and none is claimed. -/
theorem compileAll_eq_ok_iff {g : Graph} {ids : List String} {l : List Slot} {os : List Operation} :
    (compileAll g (ids.map .text) l).result = .ok os ↔
      List.Forall₂ (Operation.CompiledFrom g) l os ∧ (os.map (·.id)).Nodup ∧
        ∀ o ∈ os, o.id ∉ ids := by
  induction l generalizing ids os with
  | nil =>
    constructor
    · intro success
      cases success
      exact ⟨.nil, .nil, by simp⟩
    · rintro ⟨each, -, -⟩
      cases each
      rfl
  | cons slot rest ih =>
    -- the identifiers that are claimed when the rest is compiled
    have step : (compileAll g (ids.map .text) (slot :: rest)).result = .ok os ↔
        ∃ o others, (Operation.compile g slot []).1 = .ok o ∧ o.id ∉ ids ∧
          (compileAll g ((ids ++ [o.id]).map .text) rest).result = .ok others ∧
          os = o :: others := by
      rw [compileAll, Run.andThen_eq_ok_iff]
      simp only
      constructor
      · rintro ⟨o, first, success⟩
        obtain ⟨alone, new, next⟩ := Operation.compile_eq_ok_iff.mp (Prod.ext first rfl)
        obtain ⟨others, following, finished⟩ := Run.andThen_eq_ok success
        cases finished
        exact ⟨o, others, alone, new, next ▸ following, rfl⟩
      · rintro ⟨o, others, alone, new, following, rfl⟩
        rw [Operation.compile_eq_ok_iff.mpr ⟨alone, new, rfl⟩]
        exact ⟨o, rfl, Run.andThen_eq_ok_iff.mpr ⟨others, following, rfl⟩⟩
    rw [step]
    constructor
    · rintro ⟨o, others, alone, new, following, rfl⟩
      obtain ⟨each, distinct, free⟩ := ih.mp following
      have unclaimed := fun o' member => List.mem_append.not.mp (free o' member)
      refine ⟨.cons (Operation.compiledFrom alone) each, ?_, ?_⟩
      · rw [List.map_cons, List.nodup_cons]
        refine ⟨fun again => ?_, distinct⟩
        obtain ⟨o', member, same⟩ := List.mem_map.mp again
        exact unclaimed o' member (.inr (List.mem_singleton.mpr same))
      · intro o' member
        rcases List.mem_cons.mp member with rfl | member
        · exact new
        · exact fun claimed => unclaimed o' member (.inl claimed)
    · rintro ⟨each, distinct, free⟩
      cases each with
      | @cons _ o _ others first each =>
        rw [List.map_cons, List.nodup_cons] at distinct
        refine ⟨o, others, first.compiled, free o List.mem_cons_self, ih.mpr ⟨each, distinct.2, ?_⟩,
          rfl⟩
        intro o' member claimed
        rcases List.mem_append.mp claimed with claimed | same
        · exact free o' (List.mem_cons_of_mem _ member) claimed
        · exact distinct.1 (List.mem_map.mpr ⟨o', member, List.mem_singleton.mp same⟩)

theorem compileAll_nil_eq_ok_iff {g : Graph} {l : List Slot} {os : List Operation} :
    (compileAll g [] l).result = .ok os ↔
      List.Forall₂ (Operation.CompiledFrom g) l os ∧ (os.map (·.id)).Nodup := by
  simpa using @compileAll_eq_ok_iff g [] l os

/-- The identifiers of operations are those that are stated where they stand. -/
theorem ids_of_compiled {g : Graph} {l : List Slot} {os : List Operation} {ids : List String}
    (each : List.Forall₂ (Operation.CompiledFrom g) l os)
    (stated : (l.map fun slot => (g.fields slot.operation).field "operationId") =
      ids.map Value.text) : os.map (·.id) = ids := by
  induction each generalizing ids with
  | nil =>
    cases ids with
    | nil => rfl
    | cons id ids => cases stated
  | cons here _ ih =>
    cases ids with
    | nil => cases stated
    | cons id ids =>
      obtain ⟨first, stated⟩ := List.cons.inj stated
      rw [List.map_cons, ih stated]
      cases here.id.symm.trans first
      rfl

/-- The slots of a document. -/
def slotsOf (g : Graph) (document : Value) : List Slot :=
  slots g ((g.fields document).field "components") (g.fields ((g.fields document).field "paths"))

/-- The parts of an interface: the title and the operations, which come from the slots of the document,
one from each. -/
structure InterfaceOf (g : Graph) (document : Value) (name : String) (operations : List Operation) :
    Prop where
  mapping : g.isMapping document = true
  title : title g (g.fields document) = .ok name
  /-- The routes are a mapping, or there are none. -/
  routes : ∃ es, g.optionalEntries ((g.fields document).field "paths") = .ok es
  each : List.Forall₂ (Operation.CompiledFrom g) (slotsOf g document) operations
  distinct : (operations.map (·.id)).Nodup

/-- An interface is compiled exactly if it has such parts. -/
theorem compileApi_eq_ok_iff {g : Graph} {document : Value} {result : Api × List Model} :
    (compileApi g document).result = .ok result ↔
      ∃ name operations, InterfaceOf g document name operations ∧
        result = (apiOf name operations, operations.filterMap (·.responseModel)) := by
  unfold compileApi
  rw [Run.andThen_eq_ok_iff]
  constructor
  · rintro ⟨⟨name, found⟩, start, compiled⟩
    simp only at compiled
    obtain ⟨operations, each, finished⟩ := Run.andThen_eq_ok compiled
    obtain ⟨fields, entries, start⟩ := Except.bind_eq_ok start
    obtain ⟨name', named, start⟩ := Except.bind_eq_ok start
    obtain ⟨paths, listed, start⟩ := Except.bind_eq_ok start
    obtain ⟨rfl, rfl⟩ := Prod.mk.inj (Except.ok.inj start)
    have mapping := Graph.isMapping_of_entries entries
    rw [← Graph.fields_of_entries entries] at listed named each
    rw [← Graph.fields_of_optionalEntries listed] at each
    obtain ⟨each, distinct⟩ := compileAll_nil_eq_ok_iff.mp each
    cases finished
    exact ⟨name', operations, ⟨mapping, named, ⟨paths, listed⟩, each, distinct⟩, rfl⟩
  · rintro ⟨name, operations, made, rfl⟩
    obtain ⟨paths, listed⟩ := made.routes
    have entries := Graph.entries_of_isMapping made.mapping
    have each := compileAll_nil_eq_ok_iff.mpr ⟨made.each, made.distinct⟩
    unfold slotsOf at each
    rw [Graph.fields_of_optionalEntries listed] at each
    refine ⟨(name, slots g ((g.fields document).field "components") paths), ?_,
      Run.andThen_eq_ok_iff.mpr ⟨operations, each, rfl⟩⟩
    simp only [Run.ofResult, entries, made.title, listed, Except.ok_bind]
    rfl

/-- The parts of a client: the title, the models of the components and the operations, which come
from the slots of the document, one from each. -/
structure MadeOf (g : Graph) (document : Value) (name : String) (models : List Model)
    (operations : List Operation) : Prop where
  title : title g (g.fields document) = .ok name
  models : componentModels g document = .ok models
  /-- The routes are a mapping, or there are none. -/
  routes : ∃ es, g.optionalEntries ((g.fields document).field "paths") = .ok es
  each : List.Forall₂ (Operation.CompiledFrom g) (slotsOf g document) operations
  distinct : (operations.map (·.id)).Nodup

/-- The client that is made of such parts. -/
def assemble (name : String) (models : List Model) (operations : List Operation)
    (report : Option Report) : Client :=
  ⟨basePreamble, apiOf name operations, models ++ operations.filterMap (·.responseModel), report⟩

variable {g : Graph} {document : Value}

/-- The parts of a client are determined by its document. -/
theorem MadeOf.unique {name name' : String} {models models' : List Model}
    {operations operations' : List Operation} (made : MadeOf g document name models operations)
    (made' : MadeOf g document name' models' operations') :
    name' = name ∧ models' = models ∧ operations' = operations := by
  refine ⟨Except.ok.inj (made'.title.symm.trans made.title),
    Except.ok.inj (made'.models.symm.trans made.models), ?_⟩
  have functional : Relator.RightUnique (Operation.CompiledFrom g) := fun _ _ _ left right =>
    Except.ok.inj (left.compiled.symm.trans right.compiled)
  exact List.right_unique_forall₂' functional made'.each made.each

theorem ofDocument_eq_ok_iff {report : Option Report} {c : Client} :
    (ofDocument g document report).result = .ok c ↔
      ∃ h, (Discriminator.propagate g document).result = .ok h ∧
        ∃ name models operations, MadeOf h document name models operations ∧
          c = assemble name models operations report := by
  unfold ofDocument
  rw [Run.andThen_eq_ok_iff]
  refine exists_congr fun h => and_congr_right fun _ => ?_
  rw [Run.andThen_eq_ok_iff]
  constructor
  · rintro ⟨models, components, success⟩
    obtain ⟨_, compiled, success⟩ := Run.andThen_eq_ok success
    obtain ⟨name, operations, made, rfl⟩ := compileApi_eq_ok_iff.mp compiled
    cases success
    exact ⟨name, models, operations,
      ⟨made.title, components, made.routes, made.each, made.distinct⟩, rfl⟩
  · rintro ⟨name, models, operations, made, rfl⟩
    obtain ⟨fields, entries, -⟩ := Except.bind_eq_ok made.models
    have mapping := Graph.isMapping_of_entries entries
    have compiled := compileApi_eq_ok_iff.mpr
      ⟨name, operations, ⟨mapping, made.title, made.routes, made.each, made.distinct⟩, rfl⟩
    exact ⟨models, made.models, Run.andThen_eq_ok_iff.mpr ⟨_, compiled, rfl⟩⟩

theorem validateIf_some_eq_ok_iff {v : Validator} {report : Option Report} :
    (validateIf g document (some v)).result = .ok report ↔
      ∃ warnings, Report.lint g Operation.verbs document = .ok warnings ∧
        report = some ⟨(v g document).issues, warnings⟩ := by
  unfold validateIf
  simp only
  rw [Run.andThen_eq_ok_iff]
  unfold validate
  cases Report.lint g Operation.verbs document with
  | error s => exact ⟨nofun, nofun⟩
  | ok warnings =>
    constructor
    · rintro ⟨r, success, finished⟩
      cases success
      cases finished
      exact ⟨warnings, rfl, rfl⟩
    · rintro ⟨_, success, rfl⟩
      cases success
      exact ⟨_, rfl, rfl⟩

/-- A client is generated exactly if each stage succeeds: the transformer, the check of the version,
the validation, the discriminators, and what the client is made of. -/
theorem generate_eq_ok_iff {transformer : Option Transformer} {validator : Option Validator}
    {c : Client} :
    (generate g document transformer validator).result = .ok c ↔
      ∃ g' document' report h name models operations,
        transformed g document transformer = .ok (g', document') ∧
        (∃ version, Version.check g' document' none = .ok version) ∧
        (validateIf g' document' validator).result = .ok report ∧
        (Discriminator.propagate g' document').result = .ok h ∧
        MadeOf h document' name models operations ∧
        c = assemble name models operations report := by
  unfold generate
  rw [Run.andThen_eq_ok_iff]
  constructor
  · rintro ⟨⟨g', document'⟩, start, success⟩
    obtain ⟨version, checked, success⟩ := Run.andThen_eq_ok success
    obtain ⟨report, validated, success⟩ := Run.andThen_eq_ok success
    obtain ⟨h, propagated, name, models, operations, made, whole⟩ := ofDocument_eq_ok_iff.mp success
    exact ⟨g', document', report, h, name, models, operations, start, ⟨version, checked⟩, validated,
      propagated, made, whole⟩
  · rintro ⟨g', document', report, h, name, models, operations, start, ⟨version, checked⟩, validated,
      propagated, made, whole⟩
    have finished := ofDocument_eq_ok_iff.mpr ⟨h, propagated, name, models, operations, made, whole⟩
    exact ⟨(g', document'), start, Run.andThen_eq_ok_iff.mpr ⟨version, checked,
      Run.andThen_eq_ok_iff.mpr ⟨report, validated, finished⟩⟩⟩

end Client

end TypedClient
