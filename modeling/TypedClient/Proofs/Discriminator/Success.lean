import TypedClient.Proofs.Discriminator.Effect

/-!
# Discriminators that were carried out

Where a run over the discriminators of an unshared document succeeds, its assignments have been
carried out, whatever the shape of the document is: each property that is assigned to has the last of
its literals, and all other nodes are as they were.
-/
namespace TypedClient.Discriminator

open TypedClient.Graph (propertyAddress)

variable {g h : Graph} {document : Value}

/-- What is written by plans in a row is what each of them writes. -/
theorem writes_of_each {α : Type} {plan : α → Plan} {writes : α → List Write} {l : List α}
    {ws : List Write} (success : (Plan.each plan l).writes = .ok ws)
    (known : ∀ a ∈ l, ∀ ws, (plan a).writes = .ok ws → ws = writes a) : ws = l.flatMap writes := by
  induction l generalizing ws with
  | nil =>
    cases success
    rfl
  | cons a l ih =>
    rw [Plan.each, Plan.andThen] at success
    cases first : (plan a).writes with
    | error s =>
      rw [first] at success
      cases success
    | ok own =>
      rw [first] at success
      cases rest : (Plan.each plan l).writes with
      | error s =>
        rw [rest] at success
        cases success
      | ok others =>
        rw [rest] at success
        cases success
        have following := ih rest fun b member => known b (List.mem_cons_of_mem _ member)
        rw [List.flatMap_cons, known a List.mem_cons_self own first, following]

theorem writes_of_planEntries {v : Value} {plan : Scalar × Value → Plan}
    {writes : Scalar × Value → List Write} {ws : List Write}
    (success : (planEntries g v plan).writes = .ok ws)
    (known : ∀ e ∈ g.fields v, ∀ ws, (plan e).writes = .ok ws → ws = writes e) :
    ws = (g.fields v).flatMap writes := by
  unfold planEntries at success
  split at success
  · cases success
  · next es entries =>
    rw [Graph.fields_of_entries entries] at known ⊢
    exact writes_of_each success known

/-- A value of a whole document that can be compared is a scalar. -/
theorem eq_scalar_of_comparable (whole : g.Whole document) {v : Value} {s : Scalar}
    (inside : v = .null ∨ g.Contains document v) (success : g.comparable v = .ok s) :
    v = .scalar s := by
  cases v with
  | scalar s' =>
    cases success
    rfl
  | node id =>
    have bound := whole id (inside.resolve_left nofun)
    unfold Graph.comparable at success
    simp only [Graph.view, Array.getElem?_eq_getElem bound] at success
    cases node : g.nodes[id] <;> simp only [node] at success <;> cases success

theorem target?_of_targetName {a : Assignment} {pointer name : String}
    (success : targetName g pointer a.reference = .ok name) : a.target? = some name := by
  have refused : ∀ text : Result String, (do
      fail (.discriminatorMapping (← text) (some pointer)) : Result String) ≠ .ok name := by
    intro text
    cases text <;> nofun
  obtain ⟨owner, property, literal, reference⟩ := a
  unfold targetName at success
  unfold Assignment.target?
  cases reference with
  | node id => exact absurd success (refused _)
  | scalar s =>
    cases s with
    | text s =>
      simp only at success ⊢
      cases dropped : Text.dropStart? schemasRoot.toList s.toList with
      | some rest =>
        rw [dropped] at success
        cases success
        rfl
      | none =>
        rw [dropped] at success
        exact absurd success (refused _)
    | _ => exact absurd success (refused _)

theorem writes_of_planAssign (whole : g.Whole document) {root : Value} {a : Assignment}
    (schemas : g.fields root = g.components document .schemas)
    (inside : a.property = .null ∨ g.Contains document a.property) {pointer : String}
    {ws : List Write}
    (success : (planAssign g root a.property pointer (a.literal, a.reference)).writes = .ok ws) :
    ws = (write? g document a).toList := by
  unfold planAssign at success
  simp only at success
  split at success
  · next ws' warnings step =>
    cases success
    obtain ⟨name, target, step⟩ := Except.bind_eq_ok step
    obtain ⟨known, listed, step⟩ := Except.bind_eq_ok step
    rw [← Graph.fields_of_entries listed, schemas] at step
    rw [write?, target?_of_targetName target]
    split at step
    · next missing =>
      cases step
      have none : ∀ s, property? g document name s = none := by
        intro s
        rw [property?, Graph.fields_of_other missing, field_nil, fields_null]
        rfl
      cases a.property with
      | scalar s => simp only [none s, Option.map_none, Option.toList_none]
      | node id => rfl
    · next fields entries =>
      obtain ⟨ws', planned, step⟩ := Except.bind_eq_ok step
      cases step
      obtain ⟨properties, listed, planned⟩ := Except.bind_eq_ok planned
      obtain ⟨s, compared, planned⟩ := Except.bind_eq_ok planned
      cases planned
      obtain rfl := Graph.fields_of_entries? entries
      obtain rfl := Graph.fields_of_optionalEntries listed
      rw [eq_scalar_of_comparable whole inside compared]
      simp only [property?]
      cases inline? g _ s <;> rfl
  · cases success

theorem addressed_of_mem_components {ns : Namespace} {e : Scalar × Value}
    (member : e ∈ g.components document ns) :
    g.Addressed document [.text "components", .text ns.key, e.1] e.2 := by
  rcases (Graph.Addressed.refl g document).field "components" with null | addressed
  · rw [Graph.components, null] at member
    cases member
  · exact addressed.field_entry member

/-- The parts of a discriminator stand in the document, unless they are left out. -/
theorem contains_field_discriminator {e : Scalar × Value}
    (schema : e ∈ g.components document .schemas) (name : String) :
    (g.fields ((g.fields e.2).field "discriminator")).field name = .null ∨
      g.Contains document ((g.fields ((g.fields e.2).field "discriminator")).field name) := by
  have owner := (addressed_of_mem_components schema).contains
  rcases Graph.contains_field_fields g e.2 "discriminator" with null | stated
  · rw [null, fields_null, field_nil]
    exact .inl rfl
  · exact (Graph.contains_field_fields g _ name).imp_right (owner.trans stated).trans

theorem writes_of_planAll (whole : g.Whole document) {root : Value} {e : Scalar × Value}
    (schemas : g.fields root = g.components document .schemas)
    (schema : e ∈ g.components document .schemas) {ws : List Write}
    (success : (planAll g root e).writes = .ok ws) :
    ws = (assignmentsOf g e).flatMap fun a => (write? g document a).toList := by
  unfold planAll at success
  unfold assignmentsOf
  rw [List.flatMap_map]
  split at success
  · next other =>
    cases success
    simp only [Graph.fields_of_other other, field_nil, fields_null, List.flatMap_nil]
  · next es entries =>
    obtain rfl := Graph.fields_of_entries? entries
    split at success
    · next other =>
      cases success
      simp only [Graph.fields_of_other other, field_nil, fields_null, List.flatMap_nil]
    · next discriminator entries =>
      obtain rfl := Graph.fields_of_entries? entries
      simp only at success
      split at success
      · next empty =>
        cases success
        rw [Bool.not_eq_true'] at empty
        simp only [Graph.fields_of_not_truthy empty, List.flatMap_nil]
      · split at success
        · cases success
        · refine writes_of_planEntries success fun entry member ws planned => ?_
          exact writes_of_planAssign whole schemas (contains_field_discriminator schema _) planned

/-- What a plan writes is what is written for each assignment, in order. -/
theorem writes_of_plan (whole : g.Whole document) {ws : List Write}
    (success : (plan g document).writes = .ok ws) :
    ws = (assignments g document).filterMap (write? g document) := by
  rw [assignments, List.filterMap_flatMap]
  unfold plan at success
  split at success
  · cases success
  · next root located =>
    obtain ⟨fields, entries, located⟩ := Except.bind_eq_ok located
    obtain ⟨components, listed, located⟩ := Except.bind_eq_ok located
    cases located
    obtain rfl := Graph.fields_of_entries entries
    obtain rfl := Graph.fields_of_optionalEntries listed
    split at success
    · next empty =>
      cases success
      rw [Bool.not_eq_true'] at empty
      rw [Graph.components, show Namespace.schemas.key = "schemas" from rfl,
        Graph.fields_of_not_truthy empty, List.flatMap_nil]
    · refine writes_of_planEntries success fun e schema ws planned => ?_
      rw [List.filterMap_eq_flatMap_toList]
      exact writes_of_planAll whole rfl schema planned

/-- Where a run succeeds, every node has the literal that is written to it last, if there is one. -/
theorem settled_of_success (unshared : g.Unshared document) (whole : g.Whole document)
    (success : (propagate g document).result = .ok h) :
    g.Settled (lastLiteral ((assignments g document).filterMap (write? g document))) h := by
  have start := Graph.Settles.refl g document
  have run := (follows_propagate unshared whole).run g start
  rw [run, Plan.carryOut] at success
  cases planned : (plan g document).writes with
  | error s =>
    rw [planned] at success
    cases success
  | ok ws =>
    have settled := settled_of_propagate unshared whole planned start (.refl g) (by
      rw [run, Plan.carryOut]
      exact success)
    simp only [Option.or_none] at settled
    rwa [writes_of_plan whole planned] at settled

theorem settles_of_success (unshared : g.Unshared document) (whole : g.Whole document)
    (success : (propagate g document).result = .ok h) : g.Settles document h :=
  (follows_propagate unshared whole).settles (.refl g document) success

end TypedClient.Discriminator
