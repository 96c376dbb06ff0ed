import TypedClient.Proofs.Document.Copy
import TypedClient.Proofs.Failure.Stops
import TypedClient.Proofs.Schema.Resolution

/-!
# Schemas in document graphs

The schemas inside a schema are its items, the members of its compositions, its properties and its
additional properties; a reference has none inside it. Resolving goes from a schema to the schemas
inside it, never deeper than there are nodes, and is refused as cyclic only where a schema leads back
to itself on that way. Where none does, the result is that of every copy of the schema, and so that
of its tree: it does not show which nodes are shared.
-/
namespace TypedClient

/-- The result is not the refusal of a cyclic schema. -/
def NotCyclic {α : Type} (r : Result α) : Prop :=
  ∀ message pointer, r ≠ fail (.cyclicSchema message pointer)

namespace Schema

/-- The schemas that stand in the entries of a schema. -/
inductive Inside (g : Graph) (es : Entries) : Value → Prop
  | items : Inside g es (es.field "items")
  | member (c : Composition) {members : List Value} {w : Value}
    (elements : g.elements? (es.field c.key) = some members) (member : w ∈ members) : Inside g es w
  | property {properties : Entries} {key : Scalar} {w : Value}
    (entries : g.entries? (es.field "properties") = some properties)
    (member : (key, w) ∈ properties) : Inside g es w
  | additional : Inside g es (es.field "additionalProperties")

/-- The first value is a schema inside the second, which is no reference. -/
def IsInside (g : Graph) (w v : Value) : Prop :=
  ∃ es, g.entries? v = some es ∧ g.truthy (es.field "$ref") = false ∧ Inside g es w

/-- The second schema is the first, or reached from it through the schemas inside. -/
def Reaches (g : Graph) (v w : Value) : Prop := Relation.ReflTransGen (IsInside g) w v

/-- The schema is reached again from itself. -/
def Recurs (g : Graph) (v : Value) : Prop := Relation.TransGen (IsInside g) v v

/-- The value is one of those that the schema enumerates. -/
def Enumerates (g : Graph) (v x : Value) : Prop :=
  ∃ es values, g.entries? v = some es ∧ g.elements? (es.field "enum") = some values ∧ x ∈ values

theorem exists_node_of_isInside {g : Graph} {w v : Value} (inside : IsInside g w v) :
    ∃ id, v = .node id ∧ id < g.nodes.size := by
  obtain ⟨es, entries, -, -⟩ := inside
  obtain ⟨id, rfl, view⟩ := Graph.view_of_entries? entries
  exact ⟨id, rfl, Graph.lt_size_of_view_mapping view⟩

/-! ### How deep resolving goes -/

/-- The type of a schema inside the mappings `active`, for so many levels of schemas; `beyond` stands
for whatever is deeper. -/
def resolveTo (beyond : Value → String → Result Resolved) (g : Graph) :
    Nat → List NodeId → Value → String → Result Resolved
  | 0, _, v, pointer => beyond v pointer
  | depth + 1, active, v, pointer =>
    match g.view v with
    | .mapping id es =>
      if g.truthy (es.field "$ref") then resolveReference es pointer
      else if id ∈ active then fail (.cyclicSchema cycleMessage (some pointer))
      else resolveMapping (resolveTo beyond g depth (id :: active)) g es pointer
    | _ => .ok ⟨"any", [], []⟩

/-- Every mapping that is entered is a new one, so there are no more levels than nodes. -/
theorem resolveTo_eq_resolveWithin (beyond : Value → String → Result Resolved) {g : Graph}
    {depth : Nat} {active : List NodeId} (enough : g.unvisited active < depth) :
    resolveTo beyond g depth active = resolveWithin g active := by
  induction depth generalizing active with
  | zero => omega
  | succ depth ih =>
    funext v pointer
    rw [resolveTo]
    split
    · next id es view =>
      obtain rfl := Graph.eq_of_view_mapping view
      have entries : g.entries? (.node id) = some es := by rw [Graph.entries?, view]
      split
      · next reference => rw [resolveWithin_reference entries reference]
      · next inline =>
        rw [Bool.not_eq_true] at inline
        split
        · next again => rw [resolveWithin_again entries inline again]
        · next new =>
          have fewer := Graph.unvisited_cons_lt (Graph.lt_size_of_view_mapping view) new
          rw [resolveWithin_mapping entries inline new, ih (by omega)]
    · next other =>
      rw [resolveWithin_other]
      unfold Graph.entries?
      split
      · next view => exact absurd view (other _ _)
      · rfl

theorem unvisited_nil (g : Graph) : g.unvisited [] = g.nodes.size := by
  rw [Graph.unvisited, List.filter_eq_self.mpr (by simp), List.length_range]

/-! ### What stops resolving -/

/-- Among the kinds of stop are those that a schema can have by itself. -/
structure Admits (p : Stop → Prop) : Prop where
  malformed : ∀ m, p (.malformed m)
  schema : ∀ fault pointer, p (.failure (.schema fault pointer))
  unsupported : ∀ ref pointer, p (.failure (.unsupportedReference ref pointer))

section Step

variable {p : Stop → Prop} (admits : Admits p) {inner : Value → String → Result Resolved} {g : Graph}
  {es : Entries}

include admits

theorem stopsBy_enumeration : StopsBy p (enumeration g es) :=
  .bind (.optionalElements admits.malformed g _) fun _ _ =>
    .mapM fun v _ => .textOf admits.malformed g v

theorem stopsBy_component (t : String) (pointer : Option String) :
    StopsBy p (component t pointer) := by
  unfold component
  split
  · exact .ok _
  · exact .stop (admits.unsupported t pointer)

theorem stopsBy_resolveReference (pointer : String) : StopsBy p (resolveReference es pointer) :=
  .bind (.asReference admits.malformed _) fun _ _ =>
    .bind (stopsBy_component admits _ _) fun _ _ => .ok _

omit admits in
theorem composition?_eq_some {c : Composition} {members : Value}
    (composed : composition? g es = some (c, members)) : members = es.field c.key := by
  obtain ⟨c', -, same⟩ := List.mem_map.mp (List.mem_of_find?_eq_some composed)
  cases same
  rfl

variable (sound : ∀ w, Inside g es w → ∀ q, StopsBy p (inner w q))

include sound

theorem stopsBy_resolveArray (pointer : String) : StopsBy p (resolveArray inner g es pointer) := by
  unfold resolveArray
  by_cases items : es.field "items" = .null
  · rw [if_pos items]
    exact .stop (admits.schema _ _)
  · rw [if_neg items]
    exact .bind (sound _ .items _) fun _ _ => .ok _

theorem stopsBy_resolveComposition (c : Composition) (pointer : String) :
    StopsBy p (resolveComposition inner g c (es.field c.key) pointer) := by
  unfold resolveComposition Graph.elements
  split
  · next members elements =>
    refine .bind (.ok _) fun _ same => .bind (.mapM fun e member => ?_) fun _ _ => .ok _
    cases same
    exact sound _ (.member c elements (List.fst_mem_of_mem_zipIdx member)) _
  · exact .stop (admits.malformed _)

theorem stopsBy_resolveProperties {properties : Entries}
    (entries : g.entries? (es.field "properties") = some properties) (pointer : String) :
    StopsBy p (resolveProperties inner g es properties pointer) := by
  unfold resolveProperties requiredNames
  refine .bind (.bind (.optionalElements admits.malformed g _) fun vs _ =>
    .comparables admits.malformed g vs) fun required _ => ?_
  refine .bind (.mapM fun e member => ?_) fun _ _ => .ok _
  refine .bind (.scalarTextOf admits.malformed _) fun _ _ => ?_
  refine .bind (sound _ (.property entries member) _) fun _ _ => ?_
  exact .bind (.asName admits.malformed _) fun _ _ => .ok _

theorem stopsBy_resolveStructure (pointer : String) :
    StopsBy p (resolveStructure inner g es pointer) := by
  unfold resolveStructure
  split
  · next c members composed =>
    obtain rfl := composition?_eq_some composed
    exact stopsBy_resolveComposition admits sound c pointer
  · split
    · next properties entries => exact stopsBy_resolveProperties admits sound entries pointer
    · by_cases empty : es.field "additionalProperties" = .null ∨
          es.field "additionalProperties" = .scalar (.bool false)
      · rw [if_pos empty]
        exact .ok _
      · rw [if_neg empty]
        exact .bind (sound _ .additional _) fun _ _ => .ok _

theorem stopsBy_resolveMapping (pointer : String) :
    StopsBy p (resolveMapping inner g es pointer) := by
  unfold resolveMapping
  refine .bind ?_ fun kind _ => ?_
  · unfold Kind.ofType
    split
    · exact .ok _
    · exact .ok _
    · exact .ok _
    · exact .stop (admits.malformed _)
  · cases kind with
    | number => exact .ok _
    | boolean => exact .ok _
    | array => exact .bind (stopsBy_resolveArray admits sound pointer) fun _ _ => .ok _
    | string =>
      refine .bind ?_ fun _ _ => .ok _
      unfold resolveString
      split
      · exact .ok _
      · refine .bind (stopsBy_enumeration admits) fun values _ => ?_
        split <;> exact .ok _
    | structural => exact .bind (stopsBy_resolveStructure admits sound pointer) fun _ _ => .ok _

end Step

/-- Nothing stops resolving but what a schema has by itself, and cycles. -/
theorem stopsBy_resolve {p : Stop → Prop} (admits : Admits p)
    (cyclic : ∀ message pointer, p (.failure (.cyclicSchema message pointer))) (g : Graph) (v : Value)
    (pointer : String) : StopsBy p (resolve g v pointer) := by
  suffices within : ∀ n active, g.unvisited active < n → ∀ v pointer,
      StopsBy p (resolveWithin g active v pointer) from
    within _ [] (Nat.lt_succ_self _) v pointer
  intro n
  induction n with
  | zero => exact fun active enough => absurd enough (Nat.not_lt_zero _)
  | succ n ih =>
    intro active enough v pointer
    cases entries : g.entries? v with
    | none =>
      rw [resolveWithin_other entries]
      exact .ok _
    | some es =>
      cases reference : g.truthy (es.field "$ref") with
      | true =>
        rw [resolveWithin_reference entries reference]
        exact stopsBy_resolveReference admits pointer
      | false =>
        obtain ⟨id, rfl, view⟩ := Graph.view_of_entries? entries
        by_cases again : id ∈ active
        · rw [resolveWithin_again entries reference again]
          exact .stop (cyclic _ _)
        · have fewer := Graph.unvisited_cons_lt (Graph.lt_size_of_view_mapping view) again
          rw [resolveWithin_mapping entries reference again]
          exact stopsBy_resolveMapping admits (fun w _ q => ih (id :: active) (by omega) w q) pointer

/-- Where no schema is reached again from itself, none is refused as cyclic. -/
theorem notCyclic_resolveWithin {g : Graph} {v : Value} (ends : Acc (IsInside g) v)
    {active : List NodeId} (above : ∀ id ∈ active, Relation.TransGen (IsInside g) v (.node id))
    (p : String) : NotCyclic (resolveWithin g active v p) := by
  have admits : Admits fun s => ∀ message pointer, s ≠ .failure (.cyclicSchema message pointer) :=
    ⟨nofun, nofun, nofun⟩
  suffices stops : StopsBy (fun s => ∀ message pointer, s ≠ .failure (.cyclicSchema message pointer))
      (resolveWithin g active v p) from
    fun message pointer refused => stops _ refused message pointer rfl
  induction ends generalizing active p with
  | intro v ends ih =>
    cases entries : g.entries? v with
    | none =>
      rw [resolveWithin_other entries]
      exact .ok _
    | some es =>
      cases reference : g.truthy (es.field "$ref") with
      | true =>
        rw [resolveWithin_reference entries reference]
        exact stopsBy_resolveReference admits p
      | false =>
        obtain ⟨id, rfl, -⟩ := Graph.view_of_entries? entries
        have new : id ∉ active := fun again => Acc.not_transGen_self ⟨_, ends⟩ (above id again)
        rw [resolveWithin_mapping entries reference new]
        refine stopsBy_resolveMapping admits (fun w inside q => ?_) p
        have step : IsInside g w (.node id) := ⟨es, entries, reference, inside⟩
        exact ih w step (Graph.above_cons step above) q

/-! ### Copies of schemas -/

section Copy

variable {g' g : Graph} {R : Value → Value → Prop} (copy : Graph.IsCopy g' g R)

include copy

theorem ofType_copy {v' v : Value} (related : R v' v) : Kind.ofType g' v' = Kind.ofType g v := by
  have alike := copy.view related
  unfold Kind.ofType
  generalize g'.view v' = view', g.view v = view at alike ⊢
  cases alike with
  | pair id' id first second =>
    have left := fun s => copy.eq_scalar_iff first (s := s)
    have right := fun s => copy.eq_scalar_iff second (s := s)
    split <;> split <;> simp_all
  | _ => rfl

theorem isReference_copy {v' v : Value} (related : R v' v) :
    isReference g' v' = isReference g v := by
  have entries := copy.entries? related
  unfold isReference
  generalize g'.entries? v' = es', g.entries? v = es at entries ⊢
  cases entries with
  | some alike => exact copy.truthy (copy.field alike "$ref")
  | none => rfl

variable {es' es : Entries}

theorem requiredNames_of_related (related : R (es'.field "required") (es.field "required")) :
    requiredNames g' es' = requiredNames g es := by
  unfold requiredNames
  rcases copy.optionalElements related with ⟨vs', vs, here, there, related, -⟩ | ⟨s, here, there⟩
  · rw [here, there]
    exact copy.comparables related
  · rw [here, there]
    rfl

variable (alike : Entries.Alike R es' es)

include alike

theorem composition?_copy :
    (∃ c, composition? g' es' = some (c, es'.field c.key) ∧
      composition? g es = some (c, es.field c.key)) ∨
    (composition? g' es' = none ∧ composition? g es = none) := by
  have truthy := fun c : Composition => copy.truthy (copy.field alike c.key)
  unfold composition?
  rw [List.find?_map, List.find?_map]
  have same : ((fun p : Composition × Value => g'.truthy p.2) ∘ fun c => (c, es'.field c.key)) =
      (fun p : Composition × Value => g.truthy p.2) ∘ fun c => (c, es.field c.key) := funext truthy
  rw [same]
  cases Composition.all.find? ((fun p : Composition × Value => g.truthy p.2) ∘ fun c =>
    (c, es.field c.key)) with
  | some c => exact .inl ⟨c, rfl, rfl⟩
  | none => exact .inr ⟨rfl, rfl⟩

/-- What stands inside a copy is a copy of what stands inside. -/
theorem exists_inside {w' : Value} (inside : Inside g' es' w') : ∃ w, R w' w ∧ Inside g es w := by
  cases inside with
  | items => exact ⟨_, copy.field alike "items", .items⟩
  | member c elements member =>
    have members := copy.elements? (copy.field alike c.key)
    rw [elements] at members
    generalize same : g.elements? (es.field c.key) = vs at members
    cases members with
    | some members =>
      obtain ⟨w, there, related⟩ := exists_right_of_forall₂ members member
      exact ⟨w, related, .member c same there⟩
  | property entries member =>
    have properties := copy.entries? (copy.field alike "properties")
    rw [entries] at properties
    generalize same : g.entries? (es.field "properties") = es at properties
    cases properties with
    | some properties =>
      obtain ⟨e, there, -, related⟩ := exists_right_of_forall₂ properties member
      exact ⟨e.2, related, .property same there⟩
  | additional => exact ⟨_, copy.field alike "additionalProperties", .additional⟩

theorem requiredNames_copy : requiredNames g' es' = requiredNames g es :=
  requiredNames_of_related copy (copy.field alike "required")

theorem enumeration_copy
    (trees : ∀ vs, g.elements? (es.field "enum") = some vs → ∀ x ∈ vs, ∃ t, g.Unfolds x t) :
    enumeration g' es' = enumeration g es := by
  unfold enumeration
  rcases copy.optionalElements (copy.field alike "enum") with
    ⟨vs', vs, here, there, related, listed⟩ | ⟨s, here, there⟩
  · rw [here, there, Except.ok_bind, Except.ok_bind]
    have kept := List.rel_filter (p := fun v => decide (v ≠ .null))
      (q := fun v => decide (v ≠ .null)) (fun v' v related => by
        simp only [decide_eq_true_eq]
        exact not_congr (copy.eq_scalar_iff related)) related
    refine mapM_eq_of_forall₂ (forall₂_imp_mem kept fun x' _ x member related => ?_)
    rcases listed with rfl | listed
    · cases member
    · obtain ⟨t, unfolds⟩ := trees vs listed x (List.mem_of_mem_filter member)
      exact copy.textOf related unfolds
  · rw [here, there]
    rfl

variable {inner' inner : Value → String → Result Resolved}
  (same : ∀ w' w, R w' w → Inside g' es' w' → Inside g es w → ∀ q, inner' w' q = inner w q)

include same

theorem resolveArray_copy (p : String) :
    resolveArray inner' g' es' p = resolveArray inner g es p := by
  have items := copy.field alike "items"
  have composed : isComposed g' (es'.field "items") = isComposed g (es.field "items") := by
    have entries := copy.entries? items
    unfold isComposed
    generalize g'.entries? (es'.field "items") = is', g.entries? (es.field "items") = is
      at entries ⊢
    cases entries with
    | some alike => rcases composition?_copy copy alike with ⟨c, here, there⟩ | ⟨here, there⟩ <;>
        simp [here, there]
    | none => rfl
  have absent : es'.field "items" = .null ↔ es.field "items" = .null := copy.eq_scalar_iff items
  unfold resolveArray
  simp only [absent, composed, isReference_copy copy items, same _ _ items .items .items]

theorem resolveComposition_copy (c : Composition) (p : String) :
    resolveComposition inner' g' c (es'.field c.key) p =
      resolveComposition inner g c (es.field c.key) p := by
  have elements := copy.elements? (copy.field alike c.key)
  unfold resolveComposition Graph.elements
  generalize listed' : g'.elements? (es'.field c.key) = vs',
    listed : g.elements? (es.field c.key) = vs at elements ⊢
  cases elements with
  | none => rfl
  | some members =>
    have agree := forall₂_imp_mem members fun w' mw' w mw related =>
      same w' w related (.member c listed' mw') (.member c listed mw)
    rw [Except.ok_bind, Except.ok_bind, mapM_eq_of_forall₂]
    refine (forall₂_zipIdx agree 0).imp ?_
    rintro ⟨w', index'⟩ ⟨w, index⟩ ⟨here, rfl⟩
    exact here _

theorem resolveProperties_copy {properties' properties : Entries}
    (entries' : g'.entries? (es'.field "properties") = some properties')
    (entries : g.entries? (es.field "properties") = some properties)
    (related : Entries.Alike R properties' properties) (p : String) :
    resolveProperties inner' g' es' properties' p = resolveProperties inner g es properties p := by
  unfold resolveProperties
  rw [requiredNames_copy copy alike]
  refine congrArg _ (funext fun required => ?_)
  rw [mapM_eq_of_forall₂]
  refine forall₂_imp_mem related fun e' me' e me here => ?_
  have agree := same e'.2 e.2 here.2 (.property entries' me') (.property entries me)
  simp only [here.1, agree]

theorem resolveStructure_copy (p : String) :
    resolveStructure inner' g' es' p = resolveStructure inner g es p := by
  unfold resolveStructure
  rcases composition?_copy copy alike with ⟨c, here, there⟩ | ⟨here, there⟩
  · rw [here, there]
    exact resolveComposition_copy copy alike same c p
  · rw [here, there]
    have properties := copy.entries? (copy.field alike "properties")
    generalize entries' : g'.entries? (es'.field "properties") = ps',
      entries : g.entries? (es.field "properties") = ps at properties ⊢
    cases properties with
    | some related => exact resolveProperties_copy copy alike same entries' entries related p
    | none =>
      have additional := copy.field alike "additionalProperties"
      have null : es'.field "additionalProperties" = .null ↔ es.field "additionalProperties" = .null :=
        copy.eq_scalar_iff additional
      have plain : (es'.field "type").isText "object" = (es.field "type").isText "object" :=
        decide_eq_decide.mpr (copy.eq_scalar_iff (copy.field alike "type"))
      simp only [null, copy.eq_scalar_iff additional, plain,
        same _ _ additional .additional .additional]

theorem resolveMapping_copy
    (trees : ∀ vs, g.elements? (es.field "enum") = some vs → ∀ x ∈ vs, ∃ t, g.Unfolds x t)
    (p : String) : resolveMapping inner' g' es' p = resolveMapping inner g es p := by
  have string : resolveString g' es' = resolveString g es := by
    have binary : (es'.field "format").isText "binary" = (es.field "format").isText "binary" :=
      decide_eq_decide.mpr (copy.eq_scalar_iff (copy.field alike "format"))
    rw [resolveString, resolveString, binary, enumeration_copy copy alike trees]
  have null : nullText g' es' = nullText g es := by
    rw [nullText, nullText, copy.truthy (copy.field alike "nullable")]
  unfold resolveMapping
  rw [ofType_copy copy (copy.field alike "type"), null, string,
    resolveArray_copy copy alike same, resolveStructure_copy copy alike same]

omit alike same in
theorem isInside_copy {v' v w' : Value} (related : R v' v) (inside : IsInside g' w' v') :
    ∃ w, R w' w ∧ IsInside g w v := by
  obtain ⟨es', entries', inline', inside⟩ := inside
  have entries := copy.entries? related
  rw [entries'] at entries
  generalize stated : g.entries? v = es at entries
  cases entries with
  | some alike =>
    obtain ⟨w, related, inside⟩ := exists_inside copy alike inside
    exact ⟨w, related, _, stated, (copy.truthy (copy.field alike "$ref")).symm.trans inline', inside⟩

omit alike same in
theorem acc_copy {v : Value} (ends : Acc (IsInside g) v) {v' : Value} (related : R v' v) :
    Acc (IsInside g') v' := by
  induction ends generalizing v' with
  | intro v _ ih =>
    refine ⟨v', fun w' inside => ?_⟩
    obtain ⟨w, related, inside⟩ := isInside_copy copy related inside
    exact ih w inside related

omit alike same in
/-- A schema resolves as its copies do, unless one is reached again from itself. -/
theorem resolveWithin_copy {v : Value} (ends : Acc (IsInside g) v)
    (trees : ∀ w x, Reaches g v w → Enumerates g w x → ∃ t, g.Unfolds x t) {v' : Value}
    (related : R v' v) {active' active : List NodeId}
    (above' : ∀ id ∈ active', Relation.TransGen (IsInside g') v' (.node id))
    (above : ∀ id ∈ active, Relation.TransGen (IsInside g) v (.node id)) (p : String) :
    resolveWithin g' active' v' p = resolveWithin g active v p := by
  induction ends generalizing v' active' active p with
  | intro v ends ih =>
    have entries := copy.entries? related
    generalize stated' : g'.entries? v' = fields', stated : g.entries? v = fields at entries
    cases entries with
    | none => rw [resolveWithin_other stated', resolveWithin_other stated]
    | @some es' es alike =>
      have reference := copy.truthy (copy.field alike "$ref")
      cases inline : g.truthy (es.field "$ref") with
      | true =>
        rw [resolveWithin_reference stated' (reference.trans inline),
          resolveWithin_reference stated inline]
        rw [resolveReference, resolveReference, copy.asReference (copy.field alike "$ref")]
      | false =>
        have inline' := reference.trans inline
        obtain ⟨id', rfl, -⟩ := Graph.view_of_entries? stated'
        obtain ⟨id, rfl, -⟩ := Graph.view_of_entries? stated
        have new' : id' ∉ active' := fun again =>
          Acc.not_transGen_self (acc_copy copy ⟨_, ends⟩ related) (above' id' again)
        have new : id ∉ active := fun again => Acc.not_transGen_self ⟨_, ends⟩ (above id again)
        rw [resolveWithin_mapping stated' inline' new', resolveWithin_mapping stated inline new]
        refine resolveMapping_copy copy alike (fun w' w related inside' inside q => ?_)
          (fun vs listed x member => trees _ x .refl ⟨es, vs, stated, listed, member⟩) p
        have step' : IsInside g' w' (.node id') := ⟨es', stated', inline', inside'⟩
        have step : IsInside g w (.node id) := ⟨es, stated, inline, inside⟩
        exact ih w step (fun u x reached => trees u x (.tail reached step)) related
          (Graph.above_cons step' above') (Graph.above_cons step above) q

end Copy

/-! ### Schemas in trees -/

section Parts

variable {g : Graph} {v w : Value}

/-- A schema inside another one is a scalar or stands below it in the document. -/
theorem below_of_isInside (inside : IsInside g w v) :
    (∃ s, w = .scalar s) ∨ Relation.TransGen g.IsPart w v := by
  obtain ⟨es, entries, -, inside⟩ := inside
  have field : ∀ name, (∃ s, es.field name = .scalar s) ∨
      Relation.TransGen g.IsPart (es.field name) v := fun name =>
    (Graph.field_mem_parts entries name).imp (fun null => ⟨_, null⟩) .single
  cases inside with
  | items => exact field "items"
  | member c elements member =>
    rcases Graph.mem_parts_of_elements? elements member with scalar | part
    · exact .inl scalar
    · rcases field c.key with ⟨s, scalar⟩ | below
      · rw [scalar] at part
        cases part
      · exact .inr (.head part below)
  | property properties member =>
    have part : g.IsPart w (es.field "properties") := by
      rw [Graph.IsPart, Graph.parts_of_entries? properties]
      exact List.mem_map_of_mem member
    rcases field "properties" with ⟨s, scalar⟩ | below
    · rw [scalar] at part
      cases part
    · exact .inr (.head part below)
  | additional => exact field "additionalProperties"

theorem acc_isInside_scalar (g : Graph) (s : Scalar) : Acc (IsInside g) (.scalar s) :=
  ⟨_, fun _ ⟨_, entries, _⟩ => by cases entries⟩

theorem acc_isInside (ends : Acc g.IsPart v) : Acc (IsInside g) v := by
  have closed := ends.transGen
  clear ends
  induction closed with
  | intro v _ ih =>
    refine ⟨v, fun w inside => ?_⟩
    rcases below_of_isInside inside with ⟨s, rfl⟩ | below
    · exact acc_isInside_scalar g s
    · exact ih w below

theorem acc_of_reaches (ends : Acc (IsInside g) v) (reached : Reaches g v w) :
    Acc (IsInside g) w := by
  induction reached using Relation.ReflTransGen.head_induction_on with
  | refl => exact ends
  | head inside _ ih => exact ih.inv inside

theorem contains_of_reaches (reached : Reaches g v w) : (∃ s, w = .scalar s) ∨ g.Contains v w := by
  induction reached using Relation.ReflTransGen.head_induction_on with
  | refl => exact .inr (.refl g _)
  | head inside _ ih =>
    rcases below_of_isInside inside with scalar | below
    · exact .inl scalar
    · rcases ih with ⟨s, rfl⟩ | contains
      · obtain ⟨es, entries, -⟩ := inside
        cases entries
      · exact .inr (.trans contains below.to_reflTransGen)

/-- In a schema with a tree, whatever is enumerated has a tree. -/
theorem exists_unfolds_of_enumerates {t : Tree} (unfolds : g.Unfolds v t) {x : Value}
    (reached : Reaches g v w) (enumerated : Enumerates g w x) : ∃ u, g.Unfolds x u := by
  have scalar : ∀ s, ∃ u, g.Unfolds (.scalar s) u := fun s =>
    ⟨.scalar s, Graph.unfolds_iff.mpr ⟨rfl, .nil⟩⟩
  obtain ⟨es, values, entries, elements, member⟩ := enumerated
  rcases Graph.mem_parts_of_elements? elements member with ⟨s, rfl⟩ | part
  · exact scalar s
  · rcases Graph.field_mem_parts entries "enum" with null | inside
    · rw [null] at part
      cases part
    · rcases contains_of_reaches reached with ⟨s, rfl⟩ | contains
      · cases entries
      · exact unfolds.exists_of_contains (.trans contains (.trans (.of_part inside) (.of_part part)))

end Parts

/-- Resolving ends on every graph: however schemas deeper than the graph has nodes were answered for,
it would make no difference. It is refused as cyclic only where a schema is reached again from itself.
If none is, every copy of the schema resolves to the same, however it shares its nodes; in particular
the tree of the schema does, which shares none and exists wherever no node contains itself. -/
theorem resolve_ends_whatever_is_shared (g : Graph) (v : Value) (p : String) :
    (∀ beyond, resolveTo beyond g (g.nodes.size + 1) [] v p = resolve g v p) ∧
    (∀ message pointer, resolve g v p = fail (.cyclicSchema message pointer) →
      ∃ w, Reaches g v w ∧ Recurs g w) ∧
    ((∀ w, Reaches g v w → ¬Recurs g w) →
      (∀ w x, Reaches g v w → Enumerates g w x → ∃ t, g.Unfolds x t) →
      ∀ g' v', Graph.Copies g' v' g v → resolve g' v' p = resolve g v p) ∧
    (∀ t, g.Unfolds v t → (Graph.ofTree t).1.Unshared (Graph.ofTree t).2 ∧
      resolve (Graph.ofTree t).1 (Graph.ofTree t).2 p = resolve g v p) ∧
    ((∀ w, g.Contains v w → g.shape w ≠ .missing ∧ ¬Relation.TransGen g.IsPart w w) →
      ∃ t, g.Unfolds v t) := by
  have same_of_copies : Acc (IsInside g) v →
      (∀ w x, Reaches g v w → Enumerates g w x → ∃ t, g.Unfolds x t) →
      ∀ g' v', Graph.Copies g' v' g v → resolve g' v' p = resolve g v p := by
    rintro ends trees g' v' ⟨R, copy, related⟩
    exact resolveWithin_copy copy ends trees related (by simp) (by simp) p
  have ends_of_no_loop : (∀ w, Reaches g v w → ¬Recurs g w) → Acc (IsInside g) v :=
    Graph.acc_of_acyclic fun _ _ => exists_node_of_isInside
  refine ⟨fun beyond => ?_, fun message pointer cyclic => ?_, fun acyclic =>
    same_of_copies (ends_of_no_loop acyclic), fun t unfolds => ⟨Graph.unshared_ofTree t, ?_⟩,
    fun proper => ?_⟩
  · rw [resolveTo_eq_resolveWithin beyond (by rw [unvisited_nil]; omega), resolve]
  · by_contra none
    have acyclic : ∀ w, Reaches g v w → ¬Recurs g w := fun w reached loop => none ⟨w, reached, loop⟩
    exact notCyclic_resolveWithin (ends_of_no_loop acyclic) (by simp) p message pointer cyclic
  · exact same_of_copies (acc_isInside unfolds.ends)
      (fun _ _ => exists_unfolds_of_enumerates unfolds) _ _ unfolds.copies_ofTree
  · have ends : Acc g.IsPart v := Graph.acc_of_acyclic
      (fun _ _ => Graph.exists_node_of_mem_parts) fun w contains => (proper w contains).2
    exact Graph.exists_unfolds ends fun w contains => (proper w contains).1

/-- A record whose two properties are one node, and behind it a schema that is a member of itself. -/
def sharedAndRecurring : Graph := ⟨#[
  .mapping [(.text "type", .text "string"), (.text "enum", .node 1)],
  .list [.text "cat"],
  .mapping [(.text "properties", .node 3)],
  .mapping [(.text "first", .node 0), (.text "second", .node 0)],
  .mapping [(.text "allOf", .node 5)],
  .list [.node 4]]⟩

/-- The record with the shared node at both of its places. -/
def recordTree : Tree :=
  let kind := .mapping [(.text "type", .scalar (.text "string")),
    (.text "enum", .list [.scalar (.text "cat")])]
  .mapping [(.text "properties", .mapping [(.text "first", kind), (.text "second", kind)])]

theorem unfolds_recordTree : sharedAndRecurring.Unfolds (.node 2) recordTree := by
  have scalar : ∀ s, sharedAndRecurring.Unfolds (.scalar s) (.scalar s) := fun s =>
    Graph.unfolds_iff.mpr ⟨rfl, .nil⟩
  have kind : sharedAndRecurring.Unfolds (.node 0) (.mapping [(.text "type", .scalar (.text "string")),
      (.text "enum", .list [.scalar (.text "cat")])]) :=
    Graph.unfolds_iff.mpr ⟨rfl, .cons (scalar _)
      (.cons (Graph.unfolds_iff.mpr ⟨rfl, .cons (scalar _) .nil⟩) .nil)⟩
  exact Graph.unfolds_iff.mpr ⟨rfl,
    .cons (Graph.unfolds_iff.mpr ⟨rfl, .cons kind (.cons kind .nil)⟩) .nil⟩

theorem shared_record_resolves_as_its_tree :
    resolve sharedAndRecurring (.node 2) "#" =
      .ok ⟨"\x7bfirst?: 'cat'; second?: 'cat'\x7d", [], []⟩ ∧
    (∃ t, sharedAndRecurring.Unfolds (.node 2) t) ∧
    (Graph.ofTree recordTree).1.Unshared (Graph.ofTree recordTree).2 ∧
    resolve (Graph.ofTree recordTree).1 (Graph.ofTree recordTree).2 "#" =
      resolve sharedAndRecurring (.node 2) "#" ∧
    (∀ g' v', Graph.Copies g' v' sharedAndRecurring (.node 2) →
      resolve g' v' "#" = resolve sharedAndRecurring (.node 2) "#") ∧
    resolve sharedAndRecurring (.node 4) "#" =
      fail (.cyclicSchema cycleMessage (some "#/allOf/0")) ∧
    ∃ w, Reaches sharedAndRecurring (.node 4) w ∧ Recurs sharedAndRecurring w := by
  have record := resolve_ends_whatever_is_shared sharedAndRecurring (.node 2) "#"
  have member := resolve_ends_whatever_is_shared sharedAndRecurring (.node 4) "#"
  have refused : resolve sharedAndRecurring (.node 4) "#" =
      fail (.cyclicSchema cycleMessage (some "#/allOf/0")) := by
    rw [← member.1 fun _ _ => malformed .endless]
    decide +kernel
  refine ⟨?_, ?_, (record.2.2.2.1 recordTree unfolds_recordTree).1,
    (record.2.2.2.1 recordTree unfolds_recordTree).2, ?_, refused, member.2.1 _ _ refused⟩
  · rw [← record.1 fun _ _ => malformed .endless]
    decide +kernel
  · refine record.2.2.2.2 fun w contains => ?_
    obtain ⟨u, unfolds⟩ := unfolds_recordTree.exists_of_contains contains
    refine ⟨fun missing => ?_, Acc.not_transGen_self unfolds.ends⟩
    have shape := (Graph.unfolds_iff.mp unfolds).1
    rw [missing] at shape
    cases u <;> cases shape
  · refine record.2.2.1 (fun w reached => ?_)
      fun w x => exists_unfolds_of_enumerates unfolds_recordTree
    exact Acc.not_transGen_self (acc_of_reaches (acc_isInside unfolds_recordTree.ends) reached)

end Schema

end TypedClient
