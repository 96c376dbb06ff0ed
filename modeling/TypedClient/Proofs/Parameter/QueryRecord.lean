import Mathlib.Data.List.Nodup
import TypedClient.Parameter
import TypedClient.Proofs.Schema.Record

/-!
# Query parameters as a record

The query parameters of an operation are passed as one record. It is written in a way of its own and
still is the type of a schema: the object with a property for each parameter, of which those are
required that are required and have no default value. Only a name that is no identifier stands bare
in the one and in quotes in the other.
-/
namespace TypedClient

namespace TypeText

theorem length_lt_literal (s : String) : s.length < (literal s).length := by
  have escaped : ∀ cs : List Char, cs.length ≤ (cs.flatMap escapeChar).length := by
    intro cs
    induction cs with
    | nil => exact Nat.le_refl _
    | cons c cs ih =>
      have one : 1 ≤ (escapeChar c).length := by
        unfold escapeChar
        split <;> simp
      rw [List.flatMap_cons, List.length_append, List.length_cons]
      omega
  have inside := escaped s.toList
  rw [String.length_toList] at inside
  rw [literal, String.length_ofList, List.cons_append, List.length_cons, List.length_append]
  simp only [List.length_cons, List.length_nil]
  omega

/-- A name is shorter than the key of the property that it names, unless it is an identifier. -/
theorem propertyKey_cases (name : String) :
    Naming.isIdentifier name = true ∧ propertyKey name = name ∨
      Naming.isIdentifier name = false ∧ name.length < (propertyKey name).length := by
  unfold propertyKey
  cases identifier : Naming.isIdentifier name with
  | true => exact .inl ⟨rfl, rfl⟩
  | false => exact .inr ⟨rfl, length_lt_literal name⟩

end TypeText

namespace Declaration

def schema (d : Declaration) : Value := d.fields.field "schema"

/-- The default value in the schema of a parameter. -/
def default (g : Graph) (d : Declaration) : Value := (g.fields d.schema).field "default"

/-- The parameter must be given: it is required and has no default value. -/
def isNeeded (g : Graph) (d : Declaration) : Bool :=
  g.truthy (d.fields.field "required") && decide (d.default g = .null)

/-- The parameter says its name. -/
def Named (d : Declaration) : Prop := d.fields.field "name" = .text d.name

instance (d : Declaration) : Decidable d.Named :=
  inferInstanceAs (Decidable (d.fields.field "name" = .text d.name))

end Declaration

/-! ### The record of the parameters -/

namespace Parameter

variable {g : Graph} {ds : List Declaration} {d : Declaration}

theorem ofFields_eq (named : d.Named) {p : String} {r : Resolved}
    (success : Schema.resolve g d.schema (p ++ "/schema") = .ok r) :
    ofFields g p none d.fields = .ok ⟨d.name, r, g.truthy (d.fields.field "required"),
      if d.default g = .null then none else some (d.default g)⟩ := by
  have stated : Entries.lookup? d.fields (.text "name") = some (.text d.name) := by
    unfold Declaration.Named Entries.field at named
    cases here : Entries.lookup? d.fields (.text "name") with
    | none => rw [here] at named; cases named
    | some v => rw [here] at named; exact congrArg some named
  have default : ((g.entries? (d.fields.field "schema")).map fun s => s.field "default").getD .null =
      d.default g := (Graph.field_fields g d.schema "default").symm
  have text : g.textOf (.text d.name) = .ok d.name := rfl
  unfold Declaration.schema at success
  unfold ofFields
  simp only [stated, default, Option.filter_none, text, Except.ok_bind, success]
  rfl

theorem definition_eq (p : Parameter) :
    p.definition = Schema.memberText p.name (p.required && !p.hasDefault) p.type.text := by
  unfold definition Schema.memberText
  cases p.required <;> cases p.hasDefault <;> rfl

/-- What the parameters come to one after the other, if their schemas resolve to these types. -/
theorem exists_members {rs : List Resolved} (pointer : String)
    (types : List.Forall₂ (fun d r => d.Named ∧ ∀ q, Schema.resolve g d.schema q = .ok r) ds rs) :
    ∃ members, (ds.mapM fun d => ofFields g (pointer ++ "/query/" ++ d.name) none d.fields) =
        .ok members ∧
      members.map definition = List.zipWith (fun d r =>
        Schema.memberText d.name (d.isNeeded g) r.text) ds rs ∧
      members.map (·.type) = rs ∧
      members.map (fun m => m.required && !m.hasDefault) = ds.map (Declaration.isNeeded g) := by
  induction types with
  | nil => exact ⟨[], rfl, rfl, rfl, rfl⟩
  | @cons d r ds rs here types ih =>
    obtain ⟨members, success, texts, kinds, marks⟩ := ih
    have first := ofFields_eq (p := pointer ++ "/query/" ++ d.name) here.1 (here.2 _)
    have needed : (g.truthy (d.fields.field "required") && !Option.isSome
        (if d.default g = .null then none else some (d.default g))) = d.isNeeded g := by
      unfold Declaration.isNeeded
      by_cases absent : d.default g = .null <;> simp [absent]
    refine ⟨⟨d.name, r, g.truthy (d.fields.field "required"),
      if d.default g = .null then none else some (d.default g)⟩ :: members, ?_, ?_,
      congrArg (r :: ·) kinds, ?_⟩
    · rw [List.mapM_cons, first, Except.ok_bind, success]
      rfl
    · rw [List.map_cons, texts, definition_eq, hasDefault, needed, List.zipWith_cons_cons]
    · rw [List.map_cons, marks, hasDefault, needed, List.map_cons]

/-- The parameter that holds the query parameters, if their schemas resolve to these types. -/
theorem ofQuery_eq {rs : List Resolved} (pointer : String)
    (types : List.Forall₂ (fun d r => d.Named ∧ ∀ q, Schema.resolve g d.schema q = .ok r) ds rs) :
    ofQuery g pointer ds = .ok {
      name := "params"
      type := .join (Schema.recordText (List.zipWith (fun d r =>
        Schema.memberText d.name (d.isNeeded g) r.text) ds rs)) rs
      required := ds.any (Declaration.isNeeded g) } := by
  obtain ⟨members, success, texts, kinds, marks⟩ := exists_members pointer types
  have any : (members.any fun m => m.required && !m.hasDefault) =
      ds.any (Declaration.isNeeded g) := by
    have same := congrArg (List.any · id) marks
    simpa only [List.any_map, Function.id_comp] using same
  unfold ofQuery
  rw [success, Except.ok_bind, texts, kinds, any]
  rfl

end Parameter

/-! ### The schema of the record -/

/-- The schema of a parameter in a record; an empty one if the parameter has none. -/
def Declaration.IsProperty (g : Graph) (d : Declaration) (v : Value) : Prop :=
  v = d.schema ∨ d.schema = .null ∧ g.entries? v = some []

/-- An object with a property for each parameter, which requires the parameters that are needed. -/
structure IsQueryRecord (g : Graph) (ds : List Declaration) (v : Value) : Prop where
  mapping : g.isMapping v = true
  type : (g.fields v).field "type" = .text "object"
  inline : (g.fields v).field "$ref" = .null
  plain : (g.fields v).field "nullable" = .null
  simple : ∀ c : Schema.Composition, (g.fields v).field c.key = .null
  properties : ∃ ps, g.entries? ((g.fields v).field "properties") = some ps ∧
    List.Forall₂ (fun e d => e.1 = .text d.name ∧ d.IsProperty g e.2) ps ds
  required : ∃ id, g.view ((g.fields v).field "required") =
    .list id ((ds.filter (Declaration.isNeeded g)).map fun d => .text d.name)

theorem IsQueryRecord.isRecord {g : Graph} {ds : List Declaration} {v : Value}
    (record : IsQueryRecord g ds v) : Schema.IsRecord g v where
  inline := by rw [record.inline]; rfl
  type := .inr record.type
  simple c := by rw [record.simple c]; rfl
  mapping := by
    obtain ⟨ps, entries, -⟩ := record.properties
    rw [Graph.isMapping, entries]
    rfl

namespace Schema

variable {g : Graph} {ds : List Declaration} {v : Value} {os : List Outline}

theorem hasOutline_of_isProperty {d : Declaration} {o : Outline} (outline : HasOutline g d.schema o)
    (property : d.IsProperty g v) : HasOutline g v o := by
  rcases property with rfl | ⟨absent, empty⟩
  · exact outline
  · have form : ∀ w, w = v ∨ w = .null → Form.of? g w = some (false, .leaf .any) := by
      rintro w (rfl | rfl)
      · rw [Form.of?, empty]
        rfl
      · rfl
    have any : ∀ w, w = v ∨ w = .null → HasOutline g w .any := by
      intro w kind
      have leaf : HasOutline g w (((Form.leaf .any).outline []).orNull false) :=
        .intro (form w kind) rfl (by simp [Form.inner])
      exact leaf
    rw [absent] at outline
    rw [outline.unique (any _ (.inr rfl))]
    exact any v (.inl rfl)

theorem comparables_map_text (names : List String) :
    g.comparables (names.map .text) = .ok (names.map .text) := by
  induction names with
  | nil => rfl
  | cons name names ih =>
    rw [List.map_cons, Value.text, Graph.comparables, Graph.view_scalar, ih]
    rfl

theorem requiredNames_of_list {es : Entries} {id : NodeId} (names : List String)
    (list : g.view (es.field "required") = .list id (names.map .text)) :
    requiredNames g es = .ok (names.map .text) := by
  have elements : g.optionalElements (es.field "required") = .ok (names.map .text) := by
    unfold Graph.optionalElements Graph.elements Graph.truthy
    rw [elements?_of_view_list list, list]
    cases names <;> rfl
  rw [requiredNames, elements, Except.ok_bind, comparables_map_text]

/-- A name is required exactly if its parameter is needed. -/
theorem any_same_needed (distinct : (ds.map (·.name)).Nodup) {d : Declaration} (member : d ∈ ds) :
    (((ds.filter (Declaration.isNeeded g)).map (·.name)).map Scalar.text).any
      (Scalar.text d.name).same = d.isNeeded g := by
  rw [Bool.eq_iff_iff, List.any_eq_true]
  constructor
  · rintro ⟨key, listed, same⟩
    obtain ⟨name, called, rfl⟩ := List.mem_map.mp listed
    obtain ⟨d', kept, rfl⟩ := List.mem_map.mp called
    obtain ⟨member', needed⟩ := List.mem_filter.mp kept
    have named : d.name = d'.name := Scalar.text.inj (Scalar.same_text_iff.mp same)
    rwa [List.inj_on_of_nodup_map distinct member member' named]
  · intro needed
    refine ⟨.text d.name, List.mem_map_of_mem (List.mem_map_of_mem ?_), Scalar.same_text_iff.mpr rfl⟩
    exact List.mem_filter.mpr ⟨member, needed⟩

/-- The members of the record. -/
def queryMembers (g : Graph) (ds : List Declaration) (os : List Outline) : List (Member Outline) :=
  List.zipWith (fun d o => ⟨d.name, d.isNeeded g, o⟩) ds os

theorem map_type_queryMembers (length : ds.length = os.length) :
    (queryMembers g ds os).map (·.type) = os := by
  rw [queryMembers, List.map_zipWith, ← List.map_uncurry_zip_eq_zipWith]
  exact List.map_snd_zip (Nat.le_of_eq length.symm)

/-- They are the members that the properties of the record are read as. -/
theorem memberOutlines_eq {required : List Scalar} {ps : Entries}
    (names : List.Forall₂ (fun e d => e.1 = .text d.name) ps ds)
    (requires : ∀ d ∈ ds, required.any (Scalar.text d.name).same = d.isNeeded g) :
    memberOutlines required ps os = queryMembers g ds os := by
  induction names generalizing os with
  | nil => rfl
  | cons name names ih =>
    rw [List.forall_mem_cons] at requires
    cases os with
    | nil => rfl
    | cons o os =>
      have rest : memberOutlines required _ os = queryMembers g _ os := ih requires.2
      rw [memberOutlines, List.zipWith_cons_cons, name, requires.1]
      exact congrArg (_ :: ·) rest

/-- The outline of the record. -/
theorem hasOutline_queryRecord (record : IsQueryRecord g ds v)
    (distinct : (ds.map (·.name)).Nodup)
    (outlines : List.Forall₂ (fun d o => HasOutline g d.schema o) ds os) :
    HasOutline g v (.record (queryMembers g ds os)) := by
  obtain ⟨ps, entries, related⟩ := record.properties
  obtain ⟨id, list⟩ := record.required
  have requires := requiredNames_of_list ((ds.filter (Declaration.isNeeded g)).map (·.name))
    (by rw [list, List.map_map]; rfl)
  have listed : properties g v = ps := Graph.fields_of_entries? entries
  have plain : isNullable g v = false := by
    rw [isNullable, record.plain]
    rfl
  have members : memberOutlines _ ps os = queryMembers g ds os :=
    memberOutlines_eq (related.imp fun _ _ here => here.1) fun d member =>
      any_same_needed distinct member
  have each := forall₂_trans (fun e d o here outline =>
    (⟨⟨d.name, here.1⟩, hasOutline_of_isProperty outline here.2⟩ :
      (∃ name, e.1 = .text name) ∧ HasOutline g e.2 o)) related outlines
  have outline := record.isRecord.hasOutline requires (listed ▸ each)
  rwa [listed, members, plain] at outline

/-- The type of the record. -/
theorem resolve_queryRecord (record : IsQueryRecord g ds v) (distinct : (ds.map (·.name)).Nodup)
    (outlines : List.Forall₂
      (fun d o => HasOutline g d.schema o ∧ ∀ c ∈ o.visits "", c.2.Sound) ds os) (q : String) :
    resolve g v q = .ok (.join (recordText (List.zipWith (fun d o =>
        memberText (TypeText.propertyKey d.name) (d.isNeeded g) o.text) ds os))
      (os.map fun o => o.resolved "")) := by
  have outline := hasOutline_queryRecord record distinct (outlines.imp fun _ _ h => h.1)
  have members := map_type_queryMembers (g := g) outlines.length_eq
  have sound : ∀ c ∈ (Outline.record (queryMembers g ds os)).visits q, c.2.Sound := by
    refine Outline.forall_visits_iff.mpr ⟨trivial, fun i member => ?_⟩
    obtain ⟨m, inside, rfl⟩ := List.mem_map.mp member
    have type : m.type ∈ os := members ▸ List.mem_map_of_mem inside
    obtain ⟨d, -, -, visited⟩ := exists_right_of_forall₂ outlines.flip type
    exact Outline.sound_anywhere visited _
  have types : ((Outline.record (queryMembers g ds os)).inner.map fun c =>
      c.2.resolved (q ++ c.1)) = os.map fun o => o.resolved "" := by
    rw [Outline.inner, List.map_map, ← members, List.map_map, members]
    exact List.map_congr_left fun m _ => m.type.resolved_eq _ _
  rw [outline.resolve_eq_result q, Outline.result_of_sound sound, ← Outline.join_resolved rfl rfl,
    types, Outline.text, queryMembers, List.map_zipWith]

/-! ### The two ways to write a member -/

/-- A member under its bare name is as it is under its key, or it is shorter. -/
theorem memberText_cases (name : String) (required : Bool) (type : String) :
    Naming.isIdentifier name = true ∧
        memberText name required type = memberText (TypeText.propertyKey name) required type ∨
      Naming.isIdentifier name = false ∧ (memberText name required type).length <
        (memberText (TypeText.propertyKey name) required type).length := by
  rcases TypeText.propertyKey_cases name with ⟨identifier, same⟩ | ⟨other, less⟩
  · exact .inl ⟨identifier, by rw [same]⟩
  · refine .inr ⟨other, ?_⟩
    simp only [memberText, String.length_append]
    omega

theorem recordText_members_iff (length : ds.length = os.length) :
    recordText (List.zipWith (fun d o => memberText d.name (d.isNeeded g) o.text) ds os) =
        recordText (List.zipWith (fun d o =>
          memberText (TypeText.propertyKey d.name) (d.isNeeded g) o.text) ds os) ↔
      ∀ d ∈ ds, Naming.isIdentifier d.name = true := by
  have braces : ∀ l l' : List String, recordText l = recordText l' ↔
      Text.joinWith "; " l = Text.joinWith "; " l' := by
    intro l l'
    rw [← String.toList_inj, ← String.toList_inj, toList_recordText, toList_recordText]
    simp
  rw [braces]
  suffices members : List.Forall₂ (fun s t => s = t ∨ s.length < t.length)
      (List.zipWith (fun d o => memberText d.name (d.isNeeded g) o.text) ds os)
      (List.zipWith (fun d o => memberText (TypeText.propertyKey d.name) (d.isNeeded g) o.text) ds
        os) ∧
      (List.zipWith (fun d o => memberText d.name (d.isNeeded g) o.text) ds os =
        List.zipWith (fun d o => memberText (TypeText.propertyKey d.name) (d.isNeeded g) o.text) ds
          os ↔ ∀ d ∈ ds, Naming.isIdentifier d.name = true) from
    ⟨fun same => members.2.mp (Text.eq_of_joinWith members.1 same),
      fun identifiers => congrArg _ (members.2.mpr identifiers)⟩
  induction ds generalizing os with
  | nil => exact ⟨.nil, iff_of_true rfl nofun⟩
  | cons d ds ih =>
    obtain ⟨o, os, rfl⟩ := List.exists_cons_of_length_eq_add_one length.symm
    obtain ⟨shorter, equal⟩ := ih (by simpa using length)
    simp only [List.zipWith_cons_cons, List.forall₂_cons, List.cons.injEq, List.forall_mem_cons, equal]
    rcases memberText_cases d.name (d.isNeeded g) o.text with ⟨identifier, same⟩ | ⟨other, less⟩
    · exact ⟨⟨.inl same, shorter⟩, by rw [identifier, same]; simp⟩
    · refine ⟨⟨.inr less, shorter⟩, ?_⟩
      rw [other]
      refine iff_of_false (fun both => ?_) (by simp)
      rw [both.1] at less
      exact Nat.lt_irrefl _ less

end Schema

namespace Parameter

variable {g : Graph} {ds : List Declaration} {record : Value}

/-- The parameter that holds the query parameters has the imports of the object with a property for
each of them, and it must be given exactly if the object requires something. It is written as the
object is exactly if all names are identifiers: a name that is none is not put in quotes. -/
theorem query_record_agrees_iff (named : ∀ d ∈ ds, d.Named) (distinct : (ds.map (·.name)).Nodup)
    (resolves : ∀ d ∈ ds, ∃ p r, Schema.resolve g d.schema p = .ok r)
    (object : IsQueryRecord g ds record) (pointer place : String) :
    ∃ p r, ofQuery g pointer ds = .ok p ∧ Schema.resolve g record place = .ok r ∧
      p.type.imports = r.imports ∧
      (p.type.text = r.text ↔ ∀ d ∈ ds, Naming.isIdentifier d.name = true) ∧
      (p.required = true ↔ g.elements? ((g.fields record).field "required") ≠ some []) := by
  obtain ⟨os, outlines⟩ : ∃ os : List Schema.Outline, List.Forall₂ (fun d o =>
      Schema.HasOutline g d.schema o ∧ ∀ c ∈ o.visits "", c.2.Sound) ds os := by
    refine exists_forall₂ fun d member => ?_
    obtain ⟨p, r, success⟩ := resolves d member
    obtain ⟨o, outline, sound, -⟩ := Schema.exists_outline_anywhere success
    exact ⟨o, outline, sound⟩
  have types : List.Forall₂ (fun d r => d.Named ∧ ∀ q, Schema.resolve g d.schema q = .ok r) ds
      (os.map fun o => o.resolved "") := by
    refine List.forall₂_map_right_iff.mpr (forall₂_imp_mem outlines fun d member o _ here => ?_)
    refine ⟨named d member, fun q => ?_⟩
    rw [here.1.resolve_eq_result, Schema.Outline.result_of_sound here.2]
  refine ⟨_, _, ofQuery_eq pointer types, Schema.resolve_queryRecord object distinct outlines place,
    rfl, ?_, ?_⟩
  · rw [← Schema.recordText_members_iff (g := g) outlines.length_eq]
    simp only [Resolved.join, List.zipWith_map_right]
    rfl
  · obtain ⟨id, list⟩ := object.required
    rw [Schema.elements?_of_view_list list]
    simp

/-- A listing that takes a number under one name and a text under another. -/
def listing (first second : String) : Graph :=
  ⟨#[.mapping [(.text "type", .text "integer"), (.text "default", .scalar (.int 10))],
     .mapping [(.text "type", .text "string")],
     .mapping [(.text "type", .text "object"), (.text "properties", .node 3),
       (.text "required", .node 4)],
     .mapping [(.text first, .node 0), (.text second, .node 1)],
     .list [.text second]]⟩

/-- A required query parameter of the listing. -/
def listed (name : String) (schema : NodeId) : Declaration :=
  ⟨name, "query", [(.text "name", .text name), (.text "in", .text "query"),
    (.text "required", .scalar (.bool true)), (.text "schema", .node schema)], .null⟩

theorem isQueryRecord_listing (first second : String) :
    IsQueryRecord (listing first second) [listed first 0, listed second 1] (.node 2) where
  mapping := rfl
  type := rfl
  inline := rfl
  plain := rfl
  simple c := by cases c <;> rfl
  properties := ⟨_, rfl, .cons ⟨rfl, .inl rfl⟩ (.cons ⟨rfl, .inl rfl⟩ .nil)⟩
  required := ⟨4, rfl⟩

theorem limit_and_sort_are_written_as_their_object :
    IsQueryRecord (listing "limit" "sort") [listed "limit" 0, listed "sort" 1] (.node 2) ∧
    ∃ p r, ofQuery (listing "limit" "sort") "#" [listed "limit" 0, listed "sort" 1] = .ok p ∧
      Schema.resolve (listing "limit" "sort") (.node 2) "#" = .ok r ∧
      p.type.text = r.text ∧ p.required = true := by
  have object := isQueryRecord_listing "limit" "sort"
  have resolves : ∀ d ∈ [listed "limit" 0, listed "sort" 1], ∃ p r,
      Schema.resolve (listing "limit" "sort") d.schema p = .ok r := by
    simp only [List.forall_mem_cons, List.not_mem_nil, false_implies, implies_true, and_true]
    exact ⟨⟨"#", _, by with_unfolding_all rfl⟩, ⟨"#", _, by with_unfolding_all rfl⟩⟩
  obtain ⟨p, r, here, there, -, text, required⟩ := query_record_agrees_iff (by decide) (by decide)
    resolves object "#" "#"
  exact ⟨object, p, r, here, there, text.mpr (by decide), required.mpr (by decide)⟩

/-- The name of the page size is no identifier. It stands bare in the parameter and in quotes in the
object. -/
theorem page_size_is_not_quoted :
    (∀ d ∈ [listed "page-size" 0, listed "sort" 1], d.Named) ∧
    IsQueryRecord (listing "page-size" "sort") [listed "page-size" 0, listed "sort" 1] (.node 2) ∧
    (ofQuery (listing "page-size" "sort") "#" [listed "page-size" 0, listed "sort" 1]).map
        (·.type.text) = .ok "\x7bpage-size?: number; sort: string\x7d" ∧
    (Schema.resolve (listing "page-size" "sort") (.node 2) "#").map (·.text) =
        .ok "\x7b'page-size'?: number; sort: string\x7d" := by
  exact ⟨by decide, isQueryRecord_listing _ _, by with_unfolding_all rfl, by with_unfolding_all rfl⟩

end Parameter

end TypedClient
