import TypedClient.Proofs.Discriminator.Settlement

/-!
# Plans for discriminators

A plan says which literals go to which nodes, with the warnings on the way, or where to stop. It is
made from the document before anything is written. In an unshared document nothing that is written
is read again, so carrying out discriminators comes to carrying out the plan, and the plan for the
document is still the right one when literals have been written already.
-/
namespace TypedClient.Discriminator

open TypedClient.Graph (propertyAddress)

/-- A literal and the node that gets it. -/
structure Write where
  node : NodeId
  literal : Scalar
  deriving DecidableEq, Repr

def Write.carryOut (g : Graph) (w : Write) : Graph :=
  restrict g w.node (g.fields (.node w.node)) w.literal

structure Plan where
  warnings : List UnknownTarget
  writes : Result (List Write)

namespace Plan

def nothing : Plan := ⟨[], .ok []⟩

def stop (s : Stop) : Plan := ⟨[], .error s⟩

def andThen (p q : Plan) : Plan :=
  match p.writes with
  | .error s => ⟨p.warnings, .error s⟩
  | .ok ws => ⟨p.warnings ++ q.warnings, q.writes.map (ws ++ ·)⟩

/-- The plans for the elements of a list, one after the other. -/
def each {α : Type} (plan : α → Plan) : List α → Plan
  | [] => nothing
  | a :: rest => (plan a).andThen (each plan rest)

def carryOut (p : Plan) (g : Graph) : Outcome :=
  ⟨p.warnings, p.writes.map fun ws => ws.foldl Write.carryOut g⟩

theorem carryOut_andThen (p q : Plan) (g : Graph) :
    (p.andThen q).carryOut g = (p.carryOut g).andThen q.carryOut := by
  obtain ⟨warnings, _ | ws⟩ := p
  · rfl
  · obtain ⟨warnings', _ | ws'⟩ := q
    · rfl
    · simp [carryOut, andThen, Outcome.andThen, Except.map, List.foldl_append]

end Plan

/-! ### The plan for a document -/

/-- The node of a property that is an inline mapping. -/
def inline? (g : Graph) (properties : Entries) (name : Scalar) : Option NodeId :=
  match g.view ((Entries.lookup? properties name).getD .null) with
  | .mapping id fields => if g.truthy (fields.field "$ref") then none else some id
  | _ => none

/-- The literal goes to the named property of the schema, where that is an inline mapping. -/
def planProperty (g : Graph) (schema : Entries) (property : Value) (literal : Scalar) :
    Result (List Write) := do
  let properties ← g.optionalEntries (schema.field "properties")
  let name ← g.comparable property
  return (inline? g properties name).toList.map (⟨·, literal⟩)

def planAssign (g : Graph) (schemas property : Value) (pointer : String) (entry : Scalar × Value) :
    Plan :=
  let step : Result (List Write × List UnknownTarget) := do
    let name ← targetName g pointer entry.2
    let known ← g.entries schemas
    match g.entries? (known.field name) with
    | none => return ([], [⟨entry.1, name⟩])
    | some schema => return (← planProperty g schema property entry.1, [])
  match step with
  | .ok (ws, warnings) => ⟨warnings, .ok ws⟩
  | .error s => .stop s

def planEntries (g : Graph) (v : Value) (plan : Scalar × Value → Plan) : Plan :=
  match g.entries v with
  | .error s => .stop s
  | .ok es => .each plan es

def planAll (g : Graph) (schemas : Value) (entry : Scalar × Value) : Plan :=
  match g.entries? entry.2 with
  | none => .nothing
  | some schema =>
    match g.entries? (schema.field "discriminator") with
    | none => .nothing
    | some discriminator =>
      let mapping := discriminator.field "mapping"
      if !g.truthy mapping then .nothing
      else
        match entry.1.textOf with
        | .error s => .stop s
        | .ok name =>
          let pointer := schemasRoot ++ name ++ "/discriminator"
          planEntries g mapping (planAssign g schemas (discriminator.field "propertyName") pointer)

def plan (g : Graph) (document : Value) : Plan :=
  match schemas g document with
  | .error s => .stop s
  | .ok v => if !g.truthy v then .nothing else planEntries g v (planAll g v)

/-! ### Carrying out the plan -/

/-- The plan writes to properties of schemas only, and the run carries it out on the document
whatever literals have been written. -/
structure Follows (g : Graph) (document : Value) (run : Graph → Outcome) (p : Plan) : Prop where
  slots : ∀ ws, p.writes = .ok ws → ∀ w ∈ ws, g.Slot document w.node
  run : ∀ h, g.Settles document h → run h = p.carryOut h

namespace Follows

variable {g h : Graph} {document : Value} {run next : Graph → Outcome} {p q : Plan}

theorem settles (follows : Follows g document run p) (settles : g.Settles document h) {k : Graph}
    (success : (run h).result = .ok k) : g.Settles document k := by
  rw [follows.run h settles] at success
  obtain ⟨warnings, _ | ws⟩ := p
  · cases success
  · cases success
    have slots := follows.slots ws rfl
    clear follows
    induction ws generalizing h with
    | nil => exact settles
    | cons w ws ih =>
      exact ih (settles.restrict (slots w List.mem_cons_self) w.literal) fun w' member =>
        slots w' (List.mem_cons_of_mem _ member)

theorem nothing : Follows g document (fun h => ⟨[], .ok h⟩) .nothing where
  slots := by
    rintro ws ⟨⟩ w member
    cases member
  run _ _ := rfl

theorem stop (s : Stop) : Follows g document (fun _ => ⟨[], .error s⟩) (.stop s) where
  slots := nofun
  run _ _ := rfl

theorem andThen (first : Follows g document run p) (second : Follows g document next q) :
    Follows g document (fun h => (run h).andThen next) (p.andThen q) where
  slots := by
    obtain ⟨warnings, _ | ws⟩ := p
    · nofun
    · obtain ⟨warnings', _ | ws'⟩ := q
      · nofun
      · rintro _ ⟨⟩ w member
        rcases List.mem_append.mp member with member | member
        · exact first.slots ws rfl w member
        · exact second.slots ws' rfl w member
  run h settles := by
    have reached := fun k => first.settles settles (k := k)
    rw [Plan.carryOut_andThen, ← first.run h settles]
    unfold Outcome.andThen
    cases result : (run h).result with
    | error s => rfl
    | ok k => simp only [second.run k (reached k result)]

theorem congr (follows : Follows g document run p)
    (same : ∀ h, g.Settles document h → next h = run h) : Follows g document next p where
  slots := follows.slots
  run h settles := (same h settles).trans (follows.run h settles)

variable {v : Value} {visit : Graph → Scalar × Value → Outcome} {plan : Scalar × Value → Plan}
  {es : Entries}

/-- What is done only where a value is given is planned only there. -/
theorem given (still : ∀ h, g.Settles document h → h.view v = g.view v)
    (follows : g.truthy v = true → Follows g document run p) :
    Follows g document (fun h => if !h.truthy v then ⟨[], .ok h⟩ else run h)
      (if !g.truthy v then .nothing else p) := by
  have same := fun h settles => Graph.truthy_of_view_eq (still h settles)
  cases truthy : g.truthy v with
  | false =>
    refine nothing.congr fun h settles => ?_
    simp only [same h settles, truthy, Bool.not_false, if_true]
  | true =>
    refine (follows truthy).congr fun h settles => ?_
    simp only [same h settles, truthy, Bool.not_true, Bool.false_eq_true, if_false]

/-- A walk over entries that stay as they are plans for one after the other. -/
theorem walk (still : ∀ h, g.Settles document h → h.entries v = .ok es)
    {indices : List Nat} {rest : Entries}
    (listed : List.Forall₂ (fun index e => es[index]? = some e) indices rest)
    (each : ∀ e ∈ rest, Follows g document (fun h => visit h e) (plan e)) :
    Follows g document (Discriminator.walk v es.length visit indices) (.each plan rest) := by
  induction listed with
  | nil =>
    refine nothing.congr fun h settles => ?_
    simp only [Discriminator.walk, still h settles, if_true]
  | @cons index e indices rest here _ ih =>
    have first := each e List.mem_cons_self
    have second := ih fun e' member => each e' (List.mem_cons_of_mem _ member)
    refine (first.andThen second).congr fun h settles => ?_
    have entry : entryAt h v es.length index = .ok e := by
      simp only [entryAt, still h settles, Except.ok_bind, here, if_true]
      rfl
    simp only [Discriminator.walk, entry]

theorem forall₂_range (es : Entries) :
    List.Forall₂ (fun index e => es[index]? = some e) (List.range es.length) es := by
  refine List.forall₂_iff_get.mpr ⟨by simp, fun i bound bound' => ?_⟩
  simp

theorem walkEntries (still : ∀ h, g.Settles document h → h.view v = g.view v)
    (each : ∀ e ∈ g.fields v, Follows g document (fun h => visit h e) (plan e)) :
    Follows g document (Discriminator.walkEntries v visit) (planEntries g v plan) := by
  unfold planEntries
  cases entries : g.entries v with
  | error s =>
    refine (stop s).congr fun h settles => ?_
    simp only [Discriminator.walkEntries, Graph.entries_of_view_eq (still h settles), entries]
  | ok es =>
    rw [Graph.fields_of_entries entries] at each
    have listed := fun h settles =>
      (Graph.entries_of_view_eq (still h settles)).trans entries
    refine (walk listed (forall₂_range es) each).congr fun h settles => ?_
    simp only [Discriminator.walkEntries, listed h settles]

end Follows

theorem restrictProperty_eq (g : Graph) (schema : Entries) (property : Value) (literal : Scalar) :
    restrictProperty g schema property literal =
      (planProperty g schema property literal).map fun ws => ws.foldl Write.carryOut g := by
  unfold restrictProperty planProperty
  cases g.optionalEntries (schema.field "properties") with
  | error s => rfl
  | ok properties =>
    cases g.comparable property with
    | error s => rfl
    | ok name =>
      simp only [Except.ok_bind, inline?]
      cases view : g.view ((Entries.lookup? properties name).getD .null) with
      | mapping id fields =>
        obtain rfl : g.fields (.node id) = fields :=
          Graph.eq_of_view_mapping view ▸ Graph.fields_of_view view
        simp only
        split <;> rfl
      | _ => rfl

theorem assign_eq (g : Graph) (root property : Value) (pointer : String) (entry : Scalar × Value) :
    assign root property pointer g entry =
      (planAssign g root property pointer entry).carryOut g := by
  unfold assign planAssign
  cases targetName g pointer entry.2 with
  | error s => rfl
  | ok name =>
    cases g.entries root with
    | error s => rfl
    | ok known =>
      simp only [Except.ok_bind]
      cases g.entries? (known.field name) with
      | none => rfl
      | some schema =>
        simp only [restrictProperty_eq]
        cases planProperty g schema property entry.1 <;> rfl

section Unshared

variable {g h : Graph} {document : Value}

theorem inline?_eq_some {properties : Entries} {name : Scalar} {id : NodeId}
    (inline : inline? g properties name = some id) :
    ∃ fields, g.view (.node id) = .mapping id fields ∧
      Entries.lookup? properties name = some (.node id) := by
  unfold inline? at inline
  split at inline
  · next id' fields view =>
    split at inline <;> cases inline
    cases found : Entries.lookup? properties name with
    | none =>
      rw [found] at view
      cases view
    | some w =>
      rw [found, Option.getD_some] at view
      obtain rfl := Graph.eq_of_view_mapping view
      exact ⟨fields, view, rfl⟩
  · cases inline

/-- The address of a property has the key of its entry. -/
theorem addressed_property {schema name : Scalar} {v w : Value}
    (addressed : g.Addressed document [.text "components", .text "schemas", schema] v)
    (found : Entries.lookup? (g.fields ((g.fields v).field "properties")) name = some w) :
    ∃ key, key.same name = true ∧ g.Addressed document (propertyAddress schema key) w := by
  obtain ⟨⟨key, w'⟩, here, rfl⟩ := Option.map_eq_some_iff.mp found
  have member := List.mem_of_find?_eq_some here
  have same := List.find?_some here
  refine ⟨key, same, ?_⟩
  exact addressed.field_entry member

theorem slot_of_inline? {schema name : Scalar} {v : Value} {id : NodeId}
    (addressed : g.Addressed document [.text "components", .text "schemas", schema] v)
    (inline : inline? g (g.fields ((g.fields v).field "properties")) name = some id) :
    g.Slot document id := by
  obtain ⟨fields, view, found⟩ := inline?_eq_some inline
  obtain ⟨key, -, place⟩ := addressed_property addressed found
  exact ⟨⟨fields, Graph.getElem?_of_view_mapping view⟩, schema, key, place⟩

theorem slots_of_planProperty {schema literal : Scalar} {v property : Value} {ws : List Write}
    (addressed : g.Addressed document [.text "components", .text "schemas", schema] v)
    (planned : planProperty g (g.fields v) property literal = .ok ws) :
    ∀ w ∈ ws, g.Slot document w.node := by
  obtain ⟨properties, listed, planned⟩ := Except.bind_eq_ok planned
  obtain ⟨name, -, planned⟩ := Except.bind_eq_ok planned
  cases planned
  obtain rfl := Graph.fields_of_optionalEntries listed
  intro w member
  obtain ⟨id, inline, rfl⟩ := List.mem_map.mp member
  exact slot_of_inline? addressed (Option.mem_toList.mp inline)

/-- The schemas of a document stand among its components, if there are any. -/
theorem addressed_schemas {root : Value} (located : schemas g document = .ok root) :
    root = .null ∨ g.Addressed document [.text "components", .text "schemas"] root := by
  obtain ⟨fields, entries, located⟩ := Except.bind_eq_ok located
  obtain ⟨components, listed, located⟩ := Except.bind_eq_ok located
  cases located
  obtain rfl := Graph.fields_of_entries entries
  obtain rfl := Graph.fields_of_optionalEntries listed
  rcases (Graph.Addressed.refl g document).field "components" with null | addressed
  · rw [null]
    exact .inl rfl
  · exact addressed.field "schemas"

variable (unshared : g.Unshared document) (whole : g.Whole document)
  (settles : g.Settles document h)

include unshared whole settles

/-- A literal makes no property a reference or a mapping that was none. -/
theorem inline?_of_settles {schema name : Scalar} {v : Value}
    (addressed : g.Addressed document [.text "components", .text "schemas", schema] v) :
    inline? h (g.fields ((g.fields v).field "properties")) name =
      inline? g (g.fields ((g.fields v).field "properties")) name := by
  unfold inline?
  cases found : Entries.lookup? (g.fields ((g.fields v).field "properties")) name with
  | none => rfl
  | some w =>
    obtain ⟨key, -, place⟩ := addressed_property addressed found
    have ref : ∀ id fields, g.view w = .mapping id fields →
        h.truthy (fields.field "$ref") = g.truthy (fields.field "$ref") := by
      intro id fields view
      rw [← Graph.fields_of_view view]
      exact Graph.truthy_of_view_eq
        (settles.view_field_eq unshared whole place (by simp [propertyAddress]))
    rw [Option.getD_some]
    rcases settles.view_cases whole place.contains with
      same | ⟨id, fields, fields', view, view', same⟩
    · rw [same]
      split
      · next id fields view => rw [ref id fields view]
      · rfl
    · simp only [view, view', same "$ref" (by decide), ref id fields view]

theorem planProperty_of_settles {schema : Scalar} {v property : Value}
    (addressed : g.Addressed document [.text "components", .text "schemas", schema] v)
    (still : h.view property = g.view property) (literal : Scalar) :
    planProperty h (g.fields v) property literal = planProperty g (g.fields v) property literal := by
  have properties : h.optionalEntries ((g.fields v).field "properties") =
      g.optionalEntries ((g.fields v).field "properties") :=
    Graph.optionalEntries_of_view_eq
      (settles.view_field_eq unshared whole addressed (by simp [propertyAddress]))
  unfold planProperty
  rw [properties, Graph.comparable_of_view_eq still]
  cases listed : g.optionalEntries ((g.fields v).field "properties") with
  | error s => rfl
  | ok es =>
    obtain rfl := Graph.fields_of_optionalEntries listed
    simp only [Except.ok_bind, inline?_of_settles unshared whole settles addressed]

theorem planAssign_of_settles {address : List Scalar} {root property ref : Value}
    (addressed : g.Addressed document [.text "components", .text "schemas"] root)
    (still : h.view property = g.view property) (below : g.Addressed document address ref)
    (deep : 5 < address.length) (pointer : String) (literal : Scalar) :
    planAssign h root property pointer (literal, ref) =
      planAssign g root property pointer (literal, ref) := by
  have target : targetName h pointer ref = targetName g pointer ref := by
    unfold targetName
    rw [settles.textOf_eq unshared whole below deep]
  have known : h.entries root = g.entries root :=
    Graph.entries_of_view_eq (settles.view_eq unshared whole addressed (by simp [propertyAddress]))
  unfold planAssign
  simp only [target, known]
  cases targetName g pointer ref with
  | error s => rfl
  | ok name =>
    cases listed : g.entries root with
    | error s => rfl
    | ok es =>
      obtain rfl := Graph.fields_of_entries listed
      have same : h.entries? ((g.fields root).field name) = g.entries? ((g.fields root).field name) :=
        Graph.entries?_of_view_eq
          (settles.view_field_eq unshared whole addressed (by simp [propertyAddress]))
      simp only [Except.ok_bind, same]
      cases entries : g.entries? ((g.fields root).field name) with
      | none => rfl
      | some schema =>
        obtain rfl := Graph.fields_of_entries? entries
        have addressed := addressed.field_of_entries? entries
        simp only [planProperty_of_settles unshared whole settles addressed still]

theorem schemas_of_settles : schemas h document = schemas g document := by
  have here := Graph.Addressed.refl g document
  unfold schemas
  rw [Graph.entries_of_view_eq (settles.view_eq unshared whole here (by simp [propertyAddress]))]
  cases entries : g.entries document with
  | error s => rfl
  | ok fields =>
    obtain rfl := Graph.fields_of_entries entries
    simp only [Except.ok_bind]
    rw [Graph.optionalEntries_of_view_eq
      (settles.view_field_eq unshared whole here (by simp [propertyAddress]))]

omit settles

theorem follows_assign {address : List Scalar} {root property : Value} {entry : Scalar × Value}
    (addressed : g.Addressed document [.text "components", .text "schemas"] root)
    (still : ∀ h, g.Settles document h → h.view property = g.view property)
    (below : g.Addressed document address entry.2) (deep : 5 < address.length) (pointer : String) :
    Follows g document (fun h => assign root property pointer h entry)
      (planAssign g root property pointer entry) where
  slots ws planned w member := by
    unfold planAssign at planned
    simp only at planned
    split at planned
    · next ws' warnings step =>
      cases planned
      obtain ⟨name, -, step⟩ := Except.bind_eq_ok step
      obtain ⟨known, listed, step⟩ := Except.bind_eq_ok step
      obtain rfl := Graph.fields_of_entries listed
      split at step
      · cases step
        cases member
      · next schema entries =>
        obtain ⟨planned, listed, step⟩ := Except.bind_eq_ok step
        cases step
        exact slots_of_planProperty (addressed.field_of_entries? entries)
          (Graph.fields_of_entries? entries ▸ listed) w member
    · cases planned
  run h settles := by
    rw [assign_eq, planAssign_of_settles unshared whole settles addressed (still h settles) below deep]

theorem follows_assignAll {schema : Scalar} {root : Value} {entry : Scalar × Value}
    (addressed : g.Addressed document [.text "components", .text "schemas"] root)
    (below : g.Addressed document [.text "components", .text "schemas", schema] entry.2) :
    Follows g document (fun h => assignAll root h entry) (planAll g root entry) := by
  have here : ∀ h, g.Settles document h → h.entries? entry.2 = g.entries? entry.2 :=
    fun h settles => Graph.entries?_of_view_eq
      (settles.view_eq unshared whole below (by simp [propertyAddress]))
  unfold planAll
  cases entries : g.entries? entry.2 with
  | none =>
    refine Follows.nothing.congr fun h settles => ?_
    simp only [assignAll, here h settles, entries]
  | some fields =>
    obtain rfl := Graph.fields_of_entries? entries
    have inner : ∀ h, g.Settles document h →
        h.entries? ((g.fields entry.2).field "discriminator") =
          g.entries? ((g.fields entry.2).field "discriminator") :=
      fun h settles => Graph.entries?_of_view_eq
        (settles.view_field_eq unshared whole below (by simp [propertyAddress]))
    simp only
    cases stated : g.entries? ((g.fields entry.2).field "discriminator") with
    | none =>
      refine Follows.nothing.congr fun h settles => ?_
      simp only [assignAll, here h settles, entries, inner h settles, stated]
    | some discriminator =>
      have below := below.field_of_entries? stated
      obtain rfl := Graph.fields_of_entries? stated
      have still : ∀ name h, g.Settles document h → h.view
          ((g.fields ((g.fields entry.2).field "discriminator")).field name) = g.view
          ((g.fields ((g.fields entry.2).field "discriminator")).field name) :=
        fun name h settles => settles.view_field_eq unshared whole below (by simp [propertyAddress])
      have mapping := still "mapping"
      simp only
      cases named : entry.1.textOf with
      | error s =>
        refine (Follows.given mapping fun _ => .stop s).congr fun h settles => ?_
        simp only [assignAll, here h settles, entries, inner h settles, stated, named]
      | ok name =>
        refine (Follows.given mapping fun _ => .walkEntries mapping fun e member =>
          follows_assign unshared whole addressed (still "propertyName") (below.field_entry member)
            (by simp) _).congr fun h settles => ?_
        simp only [assignAll, here h settles, entries, inner h settles, stated, named]

/-- Carrying out the discriminators of a document carries out its plan. -/
theorem follows_propagate : Follows g document (fun h => propagate h document) (plan g document) := by
  have same := fun h settles => schemas_of_settles unshared whole (h := h) settles
  unfold plan
  cases located : schemas g document with
  | error s =>
    refine (Follows.stop s).congr fun h settles => ?_
    simp only [propagate, same h settles, located]
  | ok root =>
    have still : ∀ h, g.Settles document h → h.view root = g.view root := by
      intro h settles
      rcases addressed_schemas located with rfl | addressed
      · rfl
      · exact settles.view_eq unshared whole addressed (by simp [propertyAddress])
    have mappings (given : g.truthy root = true) : Follows g document
        (walkEntries root (assignAll root)) (planEntries g root (planAll g root)) := by
      have addressed := (addressed_schemas located).resolve_left fun null => by
        rw [null] at given
        cases given
      exact .walkEntries still fun e member =>
        follows_assignAll unshared whole addressed (addressed.entry member)
    refine (Follows.given still mappings).congr fun h settles => ?_
    simp only [propagate, same h settles, located]

end Unshared

/-! ### What has been written in the end -/

/-- The literal that is written last to a node. -/
def lastLiteral (ws : List Write) (id : NodeId) : Option Scalar :=
  (ws.reverse.find? fun w => w.node = id).map (·.literal)

theorem lastLiteral_cons (w : Write) (ws : List Write) (id : NodeId) :
    lastLiteral (w :: ws) id =
      (lastLiteral ws id).or (if w.node = id then some w.literal else none) := by
  unfold lastLiteral
  rw [List.reverse_cons, List.find?_append, List.find?_singleton]
  cases ws.reverse.find? fun w => w.node = id with
  | none => by_cases here : w.node = id <;> simp [here]
  | some w' => rfl

/-- After all writes each node has the literal that was written to it last. -/
theorem settled_foldl {g h : Graph} {literals : NodeId → Option Scalar}
    (settled : g.Settled literals h) {ws : List Write}
    (mappings : ∀ w ∈ ws, ∃ fields, g.nodes[w.node]? = some (.mapping fields)) :
    g.Settled (fun id => (lastLiteral ws id).or (literals id)) (ws.foldl Write.carryOut h) := by
  induction ws generalizing h literals with
  | nil => exact settled
  | cons w ws ih =>
    obtain ⟨fields, mapping⟩ := mappings w List.mem_cons_self
    have rest := ih (settled.restrict mapping w.literal) fun w' member =>
      mappings w' (List.mem_cons_of_mem _ member)
    have same : (fun id => (lastLiteral (w :: ws) id).or (literals id)) = fun id =>
        (lastLiteral ws id).or (Function.update literals w.node (some w.literal) id) := by
      funext id
      rw [lastLiteral_cons, Option.or_assoc, Function.update_apply]
      by_cases here : w.node = id
      · simp [here]
      · simp [here, Ne.symm here]
    rw [same]
    exact rest

/-- A run that succeeds leaves the literals of its plan, whatever was written before. -/
theorem settled_of_propagate {g h k : Graph} {document : Value} {literals : NodeId → Option Scalar}
    (unshared : g.Unshared document) (whole : g.Whole document) {ws : List Write}
    (planned : (plan g document).writes = .ok ws) (settles : g.Settles document h)
    (settled : g.Settled literals h) (success : (propagate h document).result = .ok k) :
    g.Settled (fun id => (lastLiteral ws id).or (literals id)) k := by
  have follows := follows_propagate unshared whole
  rw [follows.run h settles, Plan.carryOut, planned] at success
  cases success
  exact settled_foldl settled fun w member => (follows.slots ws planned w member).mapping

/-- Schemas whose mappings give several literals to one property: a schema to itself, and another one
to the first. One literal is for a schema that is missing. -/
def rivalMappings : Tree :=
  .mapping [(.text "components", .mapping [(.text "schemas", .mapping [
    (.text "Pet", .mapping [
      (.text "discriminator", .mapping [
        (.text "propertyName", .scalar (.text "kind")),
        (.text "mapping", .mapping [
          (.text "cat", .scalar (.text "#/components/schemas/Pet")),
          (.text "dog", .scalar (.text "#/components/schemas/Pet")),
          (.text "bird", .scalar (.text "#/components/schemas/Bird"))])]),
      (.text "properties", .mapping [
        (.text "kind", .mapping [(.text "type", .scalar (.text "string"))])])]),
    (.text "Stray", .mapping [
      (.text "discriminator", .mapping [
        (.text "propertyName", .scalar (.text "kind")),
        (.text "mapping", .mapping [
          (.text "stray", .scalar (.text "#/components/schemas/Pet"))])])])])])]

end TypedClient.Discriminator
