import TypedClient.Proofs.Document.Copy
import TypedClient.Proofs.Schema.Classification
import TypedClient.Proofs.Schema.Tree

/-!
# Records

A schema without a type, or of the type of objects, is a record with its properties unless it is a
reference or a composition. Its text has a member for each property, in their order, with the text
that the property has by itself. A property of a string kind that enumerates a single text is written
as that text.
-/
namespace TypedClient.Schema

/-- The schema is a record with its properties. -/
structure IsRecord (g : Graph) (v : Value) : Prop where
  inline : g.truthy ((g.fields v).field "$ref") = false
  type : (g.fields v).field "type" = .null ∨ (g.fields v).field "type" = .text "object"
  simple : ∀ c : Composition, g.truthy ((g.fields v).field c.key) = false
  mapping : g.isMapping ((g.fields v).field "properties") = true

/-- The schema is of a string kind and stands for texts. -/
structure IsString (g : Graph) (v : Value) : Prop where
  inline : g.truthy ((g.fields v).field "$ref") = false
  type : ∃ t ∈ stringTypes, (g.fields v).field "type" = .text t
  format : (g.fields v).field "format" ≠ .text "binary"

/-- The properties of a schema. -/
def properties (g : Graph) (v : Value) : Entries := g.fields ((g.fields v).field "properties")

def isNullable (g : Graph) (v : Value) : Bool := g.truthy ((g.fields v).field "nullable")

/-- The members of a record, from the names that it requires and the texts of its properties. -/
def memberTexts (required : List Scalar) (properties : Entries) (types : List String) : List String :=
  List.zipWith (fun e type =>
    memberText (TypeText.propertyKey e.1.display) (required.any e.1.same) type) properties types

variable {g : Graph} {v : Value} {o : Outline}

/-- Properties are read as members exactly if their keys are texts. -/
theorem mapM_member?_eq_some_iff {required : List Scalar} {ps : Entries} {ms : List (Member Value)} :
    ps.mapM (Form.member? required) = some ms ↔ (∀ e ∈ ps, ∃ name, e.1 = .text name) ∧
      ms = ps.map fun e => ⟨e.1.display, required.any e.1.same, e.2⟩ := by
  induction ps generalizing ms with
  | nil => simp [eq_comm]
  | cons e ps ih =>
    rw [List.mapM_cons, List.forall_mem_cons, List.map_cons]
    constructor
    · intro read
      obtain ⟨m, here, read⟩ := Option.bind_eq_some_iff.mp read
      obtain ⟨ms', rest, read⟩ := Option.bind_eq_some_iff.mp read
      cases read
      obtain ⟨texts, rfl⟩ := ih.mp rest
      unfold Form.member? at here
      split at here
      · next name key =>
        cases here
        exact ⟨⟨⟨name, key⟩, texts⟩, by rw [key]; rfl⟩
      · cases here
    · rintro ⟨⟨⟨name, key⟩, texts⟩, rfl⟩
      rw [ih.mpr ⟨texts, rfl⟩, Form.member?, key]
      rfl

/-- The members of a record, from the names that it requires and the outlines of its properties. -/
def memberOutlines (required : List Scalar) (properties : Entries) (os : List Outline) :
    List (Member Outline) :=
  List.zipWith (fun e o => ⟨e.1.display, required.any e.1.same, o⟩) properties os

theorem map_type_memberOutlines {required : List Scalar} {ps : Entries} {os : List Outline}
    (length : ps.length = os.length) : (memberOutlines required ps os).map (·.type) = os := by
  rw [memberOutlines, List.map_zipWith, ← List.map_uncurry_zip_eq_zipWith]
  exact List.map_snd_zip (Nat.le_of_eq length.symm)

theorem outline_record (required : List Scalar) (ps : Entries) (os : List Outline) :
    (Form.record (ps.map fun e => ⟨e.1.display, required.any e.1.same, e.2⟩)).outline os =
      .record (memberOutlines required ps os) := by
  rw [Form.outline, memberOutlines, List.zip_map_left, List.map_map, ←
    List.map_uncurry_zip_eq_zipWith]
  rfl

namespace IsRecord

variable (record : IsRecord g v)

include record

theorem entries? : g.entries? v = some (g.fields v) := by
  refine Graph.entries?_of_field "properties" fun null => ?_
  have mapping := record.mapping
  rw [null] at mapping
  cases mapping

theorem composition? : composition? g (g.fields v) = none := by
  rw [Schema.composition?, List.find?_eq_none]
  rintro p member
  obtain ⟨c, -, rfl⟩ := List.mem_map.mp member
  rw [record.simple c]
  exact Bool.false_ne_true

/-- A record is read as the record of its properties. -/
theorem form : Form.of? g v =
    match requiredNames g (g.fields v) with
    | .error _ => none
    | .ok required =>
      ((properties g v).mapM (Form.member? required)).map fun ms => (isNullable g v, .record ms) := by
  obtain ⟨ps, stated⟩ := Option.isSome_iff_exists.mp record.mapping
  have kind : Kind.ofType g ((g.fields v).field "type") = .ok .structural := by
    rcases record.type with absent | object
    · rw [absent]
      rfl
    · rw [object]
      rfl
  simp only [Form.of?, record.entries?, record.inline, Bool.false_eq_true, if_false, Form.ofMapping?,
    kind, Form.ofStructure?, record.composition?, stated, properties, Graph.fields_of_entries? stated]
  cases requiredNames g (g.fields v) with
  | error s => rfl
  | ok required => exact Option.map_map ..

/-- The outline of a record has the outlines of its properties in it. -/
theorem exists_members (outline : HasOutline g v o) :
    ∃ required os, requiredNames g (g.fields v) = .ok required ∧
      List.Forall₂ (fun e o => (∃ name, e.1 = .text name) ∧ HasOutline g e.2 o) (properties g v) os ∧
      o = (Outline.record (memberOutlines required (properties g v) os)).orNull (isNullable g v) := by
  cases outline with | @intro _ null f os form length inner => ?_
  rw [record.form] at form
  cases requires : requiredNames g (g.fields v) with
  | error s =>
    rw [requires] at form
    cases form
  | ok required =>
    rw [requires] at form
    obtain ⟨ms, listed, same⟩ := Option.map_eq_some_iff.mp form
    cases same
    obtain ⟨texts, rfl⟩ := mapM_member?_eq_some_iff.mp listed
    refine ⟨required, os, rfl, ?_, by rw [outline_record]⟩
    have each := List.forall₂_iff_zip.mpr ⟨length, fun {a b} zipped => inner (a, b) zipped⟩
    rw [Form.inner, List.map_map, List.forall₂_map_left_iff] at each
    exact forall₂_imp_mem each fun e member o _ here => ⟨texts e member, here⟩

/-- Outlines of the properties of a record make up its outline. -/
theorem hasOutline {required : List Scalar} {os : List Outline}
    (requires : requiredNames g (g.fields v) = .ok required)
    (each : List.Forall₂ (fun e o => (∃ name, e.1 = .text name) ∧ HasOutline g e.2 o)
      (properties g v) os) :
    HasOutline g v
      ((Outline.record (memberOutlines required (properties g v) os)).orNull (isNullable g v)) := by
  have texts : ∀ e ∈ properties g v, ∃ name, e.1 = .text name := fun e member => by
    obtain ⟨o, -, text, -⟩ := exists_right_of_forall₂ each member
    exact text
  have form := record.form
  rw [requires] at form
  simp only [mapM_member?_eq_some_iff.mpr ⟨texts, rfl⟩, Option.map_some] at form
  obtain ⟨length, inner⟩ := List.forall₂_iff_zip.mp
    (List.forall₂_map_left_iff.mpr (each.imp fun _ _ here => here.2))
  rw [← outline_record]
  refine .intro form ?_ ?_ <;> rw [Form.inner, List.map_map]
  · exact length
  · exact fun e zipped => inner zipped

end IsRecord

theorem Outline.text_orNull (o : Outline) (null : Bool) :
    (o.orNull null).text = o.text ++ if null then " | null" else "" := by
  cases null <;> simp [orNull, text]

/-- A record resolves to the text of its members, with null added if it is to be. -/
theorem IsRecord.resolved (record : IsRecord g v) {p : String} {r : Resolved}
    (success : resolve g v p = .ok r) :
    ∃ required types, requiredNames g (g.fields v) = .ok required ∧
      List.Forall₂ (fun e type => (∃ name, e.1 = .text name) ∧
        ∀ place, (resolve g e.2 place).map (·.text) = .ok type) (properties g v) types ∧
      r.text = recordText (memberTexts required (properties g v) types) ++ nullText g (g.fields v) ∧
      TypeText.isRecord r.text = !isNullable g v ∧ r.literals = [] := by
  obtain ⟨o, outline, sound, rfl⟩ := exists_outline_anywhere success
  obtain ⟨required, os, requires, related, rfl⟩ := record.exists_members outline
  rw [Outline.visits_orNull, Outline.forall_visits_iff] at sound
  refine ⟨required, os.map Outline.text, requires, ?_, ?_, ?_, ?_⟩
  · refine List.forall₂_map_right_iff.mpr (forall₂_imp_mem related fun e _ o member here => ?_)
    refine ⟨here.1, fun place => ?_⟩
    rw [← map_type_memberOutlines related.length_eq] at member
    obtain ⟨m, inside, rfl⟩ := List.mem_map.mp member
    have visited : ∀ c ∈ m.type.visits _, c.2.Sound := sound.2 _ (List.mem_map_of_mem inside)
    rw [here.2.resolve_eq_result, Outline.result_of_sound visited]
    rfl
  · rw [memberTexts, List.zipWith_map_right]
    simp only [Outline.resolved, Outline.text_orNull, Outline.text, memberOutlines, List.map_zipWith]
    rfl
  · rw [Outline.resolved, Outline.isRecord_text]
    cases isNullable g v <;> rfl
  · rw [Outline.resolved]
    cases isNullable g v <;> rfl

theorem IsString.entries? (string : IsString g v) : g.entries? v = some (g.fields v) := by
  obtain ⟨t, -, type⟩ := string.type
  exact Graph.entries?_of_field "type" (by rw [type]; nofun)

/-- A schema of a string kind that enumerates texts is the union of these. -/
theorem IsString.resolve_enumeration (string : IsString g v) {values : List String}
    (enum : enumeration g (g.fields v) = .ok values) (some : values ≠ []) (p : String) :
    resolve g v p = .ok ⟨Text.joinWith " | " (values.map TypeText.literal) ++ nullText g (g.fields v),
      [], values⟩ := by
  have kind : Kind.ofType g ((g.fields v).field "type") = .ok .string := by
    obtain ⟨t, member, type⟩ := string.type
    have all : ∀ t ∈ stringTypes, Kind.ofScalar (.text t) = .string := by decide
    rw [type, ← all t member]
    rfl
  obtain ⟨id, rfl, view⟩ := Graph.view_of_entries? string.entries?
  have binary : ((g.fields (.node id)).field "format").isText "binary" = false :=
    decide_eq_false string.format
  have given : values.isEmpty = false := List.isEmpty_eq_false_iff.mpr some
  rw [resolve, resolveWithin_mapping string.entries? string.inline (by simp), resolveMapping, kind,
    Except.ok_bind]
  simp only [resolveString, binary, enum, Except.ok_bind, given, Bool.false_eq_true, if_false]
  rfl

/-- A schema of a string kind that enumerates one text is that text. -/
theorem IsString.resolve_single (string : IsString g v) {id : NodeId} {l : String}
    (enum : g.view ((g.fields v).field "enum") = .list id [.text l]) (p : String) :
    (resolve g v p).map (·.text) = .ok (TypeText.literal l ++ nullText g (g.fields v)) := by
  have values : enumeration g (g.fields v) = .ok [l] := by
    rw [enumeration, Graph.optionalElements, Graph.elements, elements?_of_view_list enum,
      Graph.truthy, enum]
    rfl
  rw [string.resolve_enumeration values (List.cons_ne_nil _ _)]
  rfl

end TypedClient.Schema
