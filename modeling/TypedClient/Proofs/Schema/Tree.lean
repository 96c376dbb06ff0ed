import TypedClient.Proofs.Reference.Grammar
import TypedClient.Proofs.Schema.Existence

/-!
# Trees of schemas

In a tree of schemas every field that is looked at has the shape that it should have, and no schema
stands inside itself. Every tree has an outline, so it is known exactly when its root resolves, what
it uses and what is wrong with it otherwise.
-/
namespace TypedClient.Schema

/-- A list, unless it is absent. -/
def IsListIfAny (g : Graph) (v : Value) : Prop := v = .null ∨ ∃ id vs, g.view v = .list id vs

def IsTextIfAny (v : Value) : Prop := v = .null ∨ ∃ t, v = .text t

/-- The shapes that the fields of a schema should have. -/
structure Shaped (g : Graph) (es : Entries) : Prop where
  reference : IsTextIfAny (es.field "$ref")
  type : IsTextIfAny (es.field "type")
  compositions : ∀ c : Composition, IsListIfAny g (es.field c.key)
  enumeration : IsListIfAny g (es.field "enum")
  properties : es.field "properties" = .null ∨
    ∃ ps, g.entries? (es.field "properties") = some ps ∧ ∀ e ∈ ps, ∃ name, e.1 = .text name
  required : es.field "required" = .null ∨
    ∃ id vs, g.view (es.field "required") = .list id vs ∧ ∀ v ∈ vs, ∃ t, v = .text t

/-- A schema of which every part is shaped as it should be, down to the last. -/
inductive SchemaTree (g : Graph) : Value → Prop
  | other {v : Value} (other : g.entries? v = none) : SchemaTree g v
  | mapping {v : Value} {es : Entries} (entries : g.entries? v = some es) (shaped : Shaped g es)
    (items : SchemaTree g (es.field "items"))
    (members : ∀ (c : Composition) vs, g.elements? (es.field c.key) = some vs →
      ∀ v ∈ vs, SchemaTree g v)
    (properties : ∀ ps, g.entries? (es.field "properties") = some ps → ∀ e ∈ ps, SchemaTree g e.2)
    (additional : SchemaTree g (es.field "additionalProperties")) : SchemaTree g v

section Shaped

variable {g : Graph} {es : Entries}

theorem truthy_null : g.truthy .null = false := rfl

theorem elements?_of_view_list {v : Value} {id : NodeId} {vs : List Value}
    (list : g.view v = .list id vs) : g.elements? v = some vs := by
  simp [Graph.elements?, list]

theorem IsListIfAny.optionalElements {v : Value} (list : IsListIfAny g v) :
    ∃ vs, g.optionalElements v = .ok vs := by
  unfold Graph.optionalElements
  rcases list with rfl | ⟨id, vs, list⟩
  · exact ⟨[], rfl⟩
  · split
    · exact ⟨vs, by simp [Graph.elements, elements?_of_view_list list]⟩
    · exact ⟨[], rfl⟩

theorem Shaped.kind (shaped : Shaped g es) : ∃ k, Kind.ofType g (es.field "type") = .ok k := by
  rcases shaped.type with absent | ⟨t, stated⟩
  · exact ⟨.structural, by rw [absent]; rfl⟩
  · exact ⟨Kind.ofScalar (.text t), by rw [stated]; rfl⟩

theorem comparables_texts {vs : List Value} (texts : ∀ v ∈ vs, ∃ t, v = .text t) :
    ∃ ss, g.comparables vs = .ok ss := by
  induction vs with
  | nil => exact ⟨[], rfl⟩
  | cons v vs ih =>
    simp only [List.mem_cons, forall_eq_or_imp] at texts
    obtain ⟨⟨t, rfl⟩, texts⟩ := texts
    obtain ⟨ss, rest⟩ := ih texts
    refine ⟨.text t :: ss, ?_⟩
    rw [Graph.comparables, rest]
    rfl

theorem Shaped.requires (shaped : Shaped g es) : ∃ ss, requiredNames g es = .ok ss := by
  unfold requiredNames Graph.optionalElements
  rcases shaped.required with absent | ⟨id, vs, list, texts⟩
  · exact ⟨[], by rw [absent]; rfl⟩
  · split
    · obtain ⟨ss, compared⟩ := comparables_texts (g := g) texts
      refine ⟨ss, ?_⟩
      have listed : g.elements (es.field "required") = .ok vs := by
        simp [Graph.elements, elements?_of_view_list list]
      rw [listed, Except.ok_bind, compared]
    · exact ⟨[], rfl⟩

theorem mapM_member? {ps : Entries} (named : ∀ e ∈ ps, ∃ name, e.1 = .text name)
    (required : List Scalar) :
    ∃ members, ps.mapM (Form.member? required) = some members ∧
      ∀ m ∈ members, ∃ e ∈ ps, m.type = e.2 := by
  induction ps with
  | nil => exact ⟨[], rfl, by simp⟩
  | cons e ps ih =>
    simp only [List.mem_cons, forall_eq_or_imp] at named
    obtain ⟨⟨name, key⟩, named⟩ := named
    obtain ⟨members, rest, each⟩ := ih named
    refine ⟨⟨name, required.any e.1.same, e.2⟩ :: members, ?_, ?_⟩
    · rw [List.mapM_cons, rest, Form.member?, key]
      rfl
    · intro m hm
      rcases List.mem_cons.mp hm with rfl | hm
      · exact ⟨e, List.mem_cons_self, rfl⟩
      · obtain ⟨e', member, same⟩ := each m hm
        exact ⟨e', List.mem_cons_of_mem _ member, same⟩

theorem Shaped.ofString? (shaped : Shaped g es) : ∃ o, Form.ofString? g es = some (.leaf o) := by
  obtain ⟨values, stated⟩ := shaped.enumeration.optionalElements
  unfold Form.ofString?
  rw [stated]
  split
  · exact ⟨_, rfl⟩
  · simp only
    split
    · exact ⟨_, rfl⟩
    · split <;> exact ⟨_, rfl⟩

theorem Shaped.composition? (shaped : Shaped g es) {c : Composition} {members : Value}
    (composed : composition? g es = some (c, members)) :
    ∃ first rest, g.elements? (es.field c.key) = some (first :: rest) ∧
      members = es.field c.key := by
  have stated := composition?_truthy composed
  obtain ⟨c', -, same⟩ := List.mem_map.mp (List.mem_of_find?_eq_some composed)
  obtain ⟨rfl, rfl⟩ := Prod.mk.injEq .. ▸ same
  rcases shaped.compositions c' with absent | ⟨id, vs, list⟩
  · rw [absent, truthy_null] at stated
    cases stated
  · cases vs with
    | nil => exact absurd (elements?_of_view_list list) (Graph.elements?_ne_nil stated)
    | cons first rest => exact ⟨first, rest, elements?_of_view_list list, rfl⟩

end Shaped

/-- Every tree of schemas has an outline. -/
theorem SchemaTree.exists_outline {g : Graph} {v : Value} (tree : SchemaTree g v) :
    ∃ o, HasOutline g v o := by
  induction tree with
  | @other v other =>
    have form : Form.of? g v = some (false, .leaf .any) := by simp [Form.of?, other]
    exact HasOutline.of_form form (by simp [Form.inner])
  | @mapping v es entries shaped items members properties additional ihItems ihMembers ihProperties
      ihAdditional =>
    cases reference : g.truthy (es.field "$ref") with
    | true =>
      rcases shaped.reference with absent | ⟨t, stated⟩
      · rw [absent, truthy_null] at reference
        cases reference
      · have form : Form.of? g v = some (false, .leaf (.reference t)) := by
          rw [stated] at reference
          simp only [Form.of?, entries, stated, reference, if_true]
          rfl
        exact HasOutline.of_form form (by simp [Form.inner])
    | false =>
      suffices mapping : ∃ f, Form.ofMapping? g es = some f ∧
          ∀ w ∈ f.inner, ∃ o, HasOutline g w o by
        obtain ⟨f, mapping, inside⟩ := mapping
        have form : Form.of? g v = some (g.truthy (es.field "nullable"), f) := by
          simp [Form.of?, entries, reference, mapping]
        exact HasOutline.of_form form inside
      obtain ⟨kind, known⟩ := shaped.kind
      unfold Form.ofMapping?
      rw [known]
      cases kind with
      | number => exact ⟨_, rfl, by simp [Form.inner]⟩
      | boolean => exact ⟨_, rfl, by simp [Form.inner]⟩
      | array =>
        refine ⟨_, rfl, ?_⟩
        unfold Form.ofItems
        split
        · simp [Form.inner]
        · simpa [Form.inner] using ihItems
      | string =>
        obtain ⟨o, string⟩ := shaped.ofString?
        exact ⟨_, string, by simp [Form.inner]⟩
      | structural =>
        simp only [Form.ofStructure?]
        split
        · next c composed stated =>
          obtain ⟨first, rest, elements, rfl⟩ := shaped.composition? stated
          rw [elements]
          exact ⟨_, rfl, ihMembers c _ elements⟩
        · split
          · next ps stated =>
            obtain ⟨required, requires⟩ := shaped.requires
            rcases shaped.properties with absent | ⟨ps', stated', named⟩
            · rw [absent] at stated
              cases stated
            · cases stated.symm.trans stated'
              obtain ⟨ms, read, each⟩ := mapM_member? named required
              simp only [requires, read]
              refine ⟨_, rfl, fun w hw => ?_⟩
              obtain ⟨m, hm, rfl⟩ := List.mem_map.mp hw
              obtain ⟨e, he, same⟩ := each m hm
              rw [same]
              exact ihProperties ps stated e he
          · split
            · exact ⟨_, rfl, by simp [Form.inner]⟩
            · exact ⟨_, rfl, by simpa [Form.inner] using ihAdditional⟩

/-! ### Success -/

namespace Outline

/-- What a node of a tree must not be for its root to resolve. -/
def Sound : Outline → Prop
  | .reference t => ∃ r : Reference, t = r.text ∧ r.name ≠ "" ∧ '/' ∉ r.name.toList
  | .arrayWithoutItems | .unwritable => False
  | _ => True

theorem offence?_eq_none_iff (c : String × Outline) : offence? c = none ↔ c.2.Sound := by
  obtain ⟨p, o⟩ := c
  cases o with
  | reference t =>
    simp only [offence?, Sound, ← Reference.parse?_eq_some_iff]
    cases parsed : Reference.parse? t with
    | none => simp
    | some r => simp
  | _ => simp [offence?, Sound]

theorem result_eq_ok_iff (p : String) (o : Outline) :
    (∃ r, o.result p = .ok r) ↔ ∀ c ∈ o.visits p, c.2.Sound := by
  simp only [← offence?_eq_none_iff, ← List.findSome?_eq_none_iff, result]
  cases (o.visits p).findSome? offence? <;> simp

/-- What is visited does not depend on where an outline stands. -/
theorem map_snd_visits (o : Outline) (p q : String) :
    (o.visits p).map Prod.snd = (o.visits q).map Prod.snd := by
  induction size : sizeOf o using Nat.strongRecOn generalizing o p q with
  | ind n ih =>
    rw [visits_eq, visits_eq q, List.map_cons, List.map_cons, List.map_flatMap, List.map_flatMap]
    refine congrArg (o.bare :: ·) (List.flatMap_congr fun c member => ?_)
    exact ih _ (size ▸ sizeOf_lt_of_mem_inner o c member) c.2 _ _ rfl

theorem names_eq_map (p : String) (o : Outline) :
    o.names p = ((o.visits p).map Prod.snd).filterMap typeName? := by
  rw [List.filterMap_map]
  rfl

theorem resolved_eq (o : Outline) (p q : String) : o.resolved p = o.resolved q := by
  rw [resolved, resolved, names_eq_map, names_eq_map, map_snd_visits o p q]

theorem sound_anywhere {o : Outline} {p : String} (sound : ∀ c ∈ o.visits p, c.2.Sound) (q : String) :
    ∀ c ∈ o.visits q, c.2.Sound := by
  intro c member
  have visited := List.mem_map_of_mem (f := Prod.snd) member
  rw [map_snd_visits o q p] at visited
  obtain ⟨c', member', same⟩ := List.mem_map.mp visited
  rw [← same]
  exact sound c' member'

theorem result_of_sound {o : Outline} {p : String} (sound : ∀ c ∈ o.visits p, c.2.Sound) (q : String) :
    o.result q = .ok (o.resolved p) := by
  obtain ⟨r, success⟩ := (result_eq_ok_iff q o).mpr (sound_anywhere sound q)
  rw [success, resolved_eq o p q]
  unfold result at success
  split at success <;> cases success
  rfl

end Outline

/-- A schema that resolves at one place has an outline and resolves to its type at every place. -/
theorem exists_outline_anywhere {g : Graph} {v : Value} {p : String} {r : Resolved}
    (success : resolve g v p = .ok r) :
    ∃ o, HasOutline g v o ∧ (∀ c ∈ o.visits "", c.2.Sound) ∧ r = o.resolved "" := by
  obtain ⟨o, outline, result⟩ := exists_outline_of_resolve success
  have sound := (Outline.result_eq_ok_iff p o).mp ⟨r, result⟩
  have anywhere : ∃ r', o.result "" = .ok r' := ⟨_, Outline.result_of_sound sound ""⟩
  refine ⟨o, outline, (Outline.result_eq_ok_iff "" o).mp anywhere, ?_⟩
  rw [o.resolved_eq "" p]
  exact Except.ok.inj (result.symm.trans (Outline.result_of_sound sound p))

/-- A schema that resolves does so in any place, to the same type. -/
theorem resolve_anywhere {g : Graph} {v : Value} {p : String} {r : Resolved}
    (success : resolve g v p = .ok r) (q : String) : resolve g v q = .ok r := by
  obtain ⟨o, outline, sound, rfl⟩ := exists_outline_anywhere success
  rw [outline.resolve_eq_result, Outline.result_of_sound sound]

/-- A tree of schemas resolves exactly if every array that is visited says what its items are, every
reference that is visited is to a component of one of the namespaces, and every enumeration that is
visited can be written. Then it uses the types of the references that were visited, each once and in
the order of declaration. Otherwise it fails for the first node for which it has to. -/
theorem resolve_tree {g : Graph} {v : Value} (tree : SchemaTree g v) (p : String) :
    ∃ o, HasOutline g v o ∧
      ((∃ r, resolve g v p = .ok r) ↔ ∀ c ∈ o.visits p, c.2.Sound) ∧
      (∀ r, resolve g v p = .ok r →
        r.imports = Text.distinct ((o.visits p).filterMap fun c => c.2.typeName?)) ∧
      ∀ s, resolve g v p = .error s → (o.visits p).findSome? Outline.offence? = some s := by
  obtain ⟨o, outline⟩ := tree.exists_outline
  rw [outline.resolve_eq_result]
  refine ⟨o, outline, o.result_eq_ok_iff p, fun r success => ?_, fun s failure => ?_⟩
  · unfold Outline.result at success
    split at success <;> cases success
    rfl
  · unfold Outline.result at failure
    split at failure
    · next first =>
      cases failure
      exact first
    · cases failure

def longNumberFields : Entries := [(.text "type", .text "string"), (.text "enum", .node 1)]

/-- An enumeration of one number that is too long to be written. -/
def longNumber : Graph := ⟨#[.mapping longNumberFields, .list [.scalar (.int textLimit)]]⟩

theorem schemaTree_longNumber : SchemaTree longNumber (.node 0) := by
  have absent : SchemaTree longNumber .null := .other rfl
  have entries : longNumber.entries? (.node 0) = some longNumberFields := rfl
  refine .mapping entries ?_ absent (fun c vs stated => ?_) (fun ps stated => ?_) absent
  · exact {
      reference := .inl rfl
      type := .inr ⟨"string", rfl⟩
      compositions := fun c => .inl (by cases c <;> rfl)
      enumeration := .inr ⟨1, [.scalar (.int textLimit)], rfl⟩
      properties := .inl rfl
      required := .inl rfl }
  · cases c <;> cases stated
  · cases stated

theorem hasOutline_longNumber : HasOutline longNumber (.node 0) .unwritable := by
  have string : Form.ofString? longNumber longNumberFields = some (.leaf .unwritable) := by
    have text : ¬(longNumberFields.field "format").isText "binary" := by decide
    have values : longNumber.optionalElements (longNumberFields.field "enum") =
        .ok [.scalar (.int textLimit)] := rfl
    have long : longNumber.hasText (.scalar (.int textLimit)) = false := by
      simp only [Graph.hasText, Scalar.hasText, Int.natAbs_natCast, Nat.lt_irrefl, decide_false]
    have kept : [Value.scalar (.int textLimit)].filter (fun v => v ≠ .null) =
        [.scalar (.int textLimit)] := rfl
    unfold Form.ofString?
    rw [if_neg text, values]
    simp only [kept, List.all_cons, long, Bool.false_and, Bool.false_eq_true, if_false]
  have form : Form.of? longNumber (.node 0) = some (false, .leaf .unwritable) := by
    have entries : longNumber.entries? (.node 0) = some longNumberFields := rfl
    have inline : longNumber.truthy (longNumberFields.field "$ref") = false := rfl
    have kind : Kind.ofType longNumber (longNumberFields.field "type") = .ok .string := rfl
    have null : longNumber.truthy (longNumberFields.field "nullable") = false := rfl
    simp [Form.of?, Form.ofMapping?, entries, inline, kind, null, string]
  have whole : HasOutline longNumber (.node 0) (((Form.leaf .unwritable).outline []).orNull false) :=
    .intro form rfl (by simp [Form.inner])
  exact whole

/-- No array and no reference is visited here, and yet there is no type. -/
theorem number_too_long_to_enumerate :
    SchemaTree longNumber (.node 0) ∧
      ∃ o, HasOutline longNumber (.node 0) o ∧
        (∀ c ∈ o.visits "#", c.2 ≠ .arrayWithoutItems ∧ ∀ t, c.2 ≠ .reference t) ∧
        ∀ r, resolve longNumber (.node 0) "#" ≠ .ok r := by
  refine ⟨schemaTree_longNumber, .unwritable, hasOutline_longNumber, ?_, ?_⟩
  · rw [Outline.visits_eq]
    simp [Outline.inner, Outline.bare]
  · intro r
    rw [hasOutline_longNumber.resolve_eq_result, Outline.result_unwritable]
    intro same
    cases same

def petListFields : Entries := [(.text "type", .text "array"), (.text "items", .node 1)]

def petFields : Entries := [(.text "$ref", .text "#/components/schemas/Pet")]

/-- A list of pets, each of them a component. -/
def petList : Graph := ⟨#[.mapping petListFields, .mapping petFields]⟩

theorem schemaTree_petList : SchemaTree petList (.node 0) := by
  have absent : SchemaTree petList .null := .other rfl
  have pet : SchemaTree petList (.node 1) := by
    have entries : petList.entries? (.node 1) = some petFields := rfl
    refine .mapping entries ?_ absent (fun c vs stated => ?_) (fun ps stated => ?_) absent
    · exact {
        reference := .inr ⟨_, rfl⟩
        type := .inl rfl
        compositions := fun c => .inl (by cases c <;> rfl)
        enumeration := .inl rfl
        properties := .inl rfl
        required := .inl rfl }
    · cases c <;> cases stated
    · cases stated
  have entries : petList.entries? (.node 0) = some petListFields := rfl
  refine .mapping entries ?_ pet (fun c vs stated => ?_) (fun ps stated => ?_) absent
  · exact {
      reference := .inl rfl
      type := .inr ⟨_, rfl⟩
      compositions := fun c => .inl (by cases c <;> rfl)
      enumeration := .inl rfl
      properties := .inl rfl
      required := .inl rfl }
  · cases c <;> cases stated
  · cases stated

theorem list_of_pets_resolves :
    resolve petList (.node 0) "#" = .ok ⟨"Pet[]", ["Pet"], []⟩ ∧
      ∃ o, HasOutline petList (.node 0) o ∧ (∀ c ∈ o.visits "#", c.2.Sound) ∧
        ["Pet"] = Text.distinct ((o.visits "#").filterMap fun c => c.2.typeName?) := by
  have success : resolve petList (.node 0) "#" = .ok ⟨"Pet[]", ["Pet"], []⟩ := by
    with_unfolding_all rfl
  obtain ⟨o, outline, sound, imports, -⟩ := resolve_tree schemaTree_petList "#"
  exact ⟨success, o, outline, sound.mp ⟨_, success⟩, imports _ success⟩

end TypedClient.Schema
