import TypedClient.Proofs.Document.Unfolding
import TypedClient.Proofs.Reference.Grammar
import TypedClient.Proofs.Schema.Existence

/-!
# What schemas refer to

The type of a schema refers to the type of a component if the schema is a reference to it, or if one
of the schemas inside its form refers to it. A schema that resolves uses exactly the names that its
type refers to.
-/
namespace TypedClient

theorem Reference.truthy_of_parse? {g : Graph} {t : String} {r : Reference}
    (parsed : Reference.parse? t = some r) : g.truthy (.text t) = true := by
  simp only [Graph.truthy, Value.text, Graph.view_scalar, Scalar.truthy, ne_eq, decide_eq_true_eq]
  rintro rfl
  have empty : Reference.parse? "" = none := by decide
  rw [empty] at parsed
  cases parsed

namespace Schema

/-- The type of the schema refers to the generated type of this name. -/
inductive Refers (g : Graph) : Value → String → Prop
  | here {v : Value} {t : String} {r : Reference} (stated : (g.fields v).field "$ref" = .text t)
    (parsed : Reference.parse? t = some r) : Refers g v r.typeName
  | inside {v w : Value} {null : Bool} {f : Form} {name : String}
    (form : Form.of? g v = some (null, f)) (member : w ∈ f.inner) (refers : Refers g w name) :
    Refers g v name

theorem Outline.exists_mem_inner_of_names {o : Outline} (unnamed : o.bare.typeName? = none)
    {p name : String} (named : name ∈ o.names p) : ∃ c ∈ o.inner, name ∈ c.2.names (p ++ c.1) := by
  rw [Outline.names_eq, unnamed, Option.toList_none, List.nil_append] at named
  exact List.mem_flatMap.mp named

theorem Outline.names_of_leaf {o : Outline} (leaf : o.inner = []) (p : String) :
    o.names p = o.bare.typeName?.toList := by
  rw [Outline.names_eq, leaf, List.flatMap_nil, List.append_nil]

variable {g : Graph} {v : Value}

/-- A reference to a component is read as one. -/
theorem Form.of?_of_parse? {t : String} {r : Reference}
    (stated : (g.fields v).field "$ref" = .text t) (parsed : Reference.parse? t = some r) :
    Form.of? g v = some (false, .leaf (.reference t)) := by
  have entries : g.entries? v = some (g.fields v) :=
    Graph.entries?_of_field "$ref" (by rw [stated]; nofun)
  have given : g.truthy (.text t) = true := Reference.truthy_of_parse? parsed
  simp only [Form.of?, entries, stated, given, if_true]
  rfl

/-- The names of a form are those of the outlines inside it. -/
theorem Form.exists_mem_zip {es : Entries} {f : Form} (mapping : Form.ofMapping? g es = some f)
    {os : List Outline} (length : f.inner.length = os.length) {p name : String}
    (named : name ∈ (f.outline os).names p) :
    ∃ e ∈ f.inner.zip os, ∃ q, name ∈ e.2.names q := by
  cases f with
  | leaf o =>
    rcases Form.ofMapping?_cases mapping with ⟨o', same, unnamed, leaf⟩ | ⟨_, same⟩ |
      ⟨_, _, _, same, -⟩ | ⟨_, _, _, same, -⟩ | same <;> cases same
    rw [Form.outline, Outline.names_of_leaf leaf, unnamed] at named
    cases named
  | array composed items =>
    obtain ⟨o, rfl⟩ := List.length_eq_one_iff.mp length.symm
    obtain ⟨i, inside, named⟩ := Outline.exists_mem_inner_of_names rfl named
    cases List.mem_singleton.mp inside
    exact ⟨(items, o), List.mem_cons_self, _, named⟩
  | map values =>
    obtain ⟨o, rfl⟩ := List.length_eq_one_iff.mp length.symm
    obtain ⟨i, inside, named⟩ := Outline.exists_mem_inner_of_names rfl named
    cases List.mem_singleton.mp inside
    exact ⟨(values, o), List.mem_cons_self, _, named⟩
  | composition c first rest =>
    obtain ⟨o, os, rfl⟩ := List.exists_cons_of_length_eq_add_one length.symm
    obtain ⟨i, inside, named⟩ := Outline.exists_mem_inner_of_names rfl named
    obtain ⟨⟨o', index⟩, indexed, rfl⟩ := List.mem_map.mp inside
    have member := List.fst_mem_of_mem_zipIdx indexed
    rw [← List.map_snd_zip (Nat.le_of_eq length.symm)] at member
    obtain ⟨e, zipped, same⟩ := List.mem_map.mp member
    cases same
    exact ⟨e, zipped, _, named⟩
  | record members =>
    obtain ⟨c, inside, named⟩ := Outline.exists_mem_inner_of_names rfl named
    obtain ⟨m, listed, rfl⟩ := List.mem_map.mp inside
    obtain ⟨e, zipped, rfl⟩ :
        ∃ e ∈ members.zip os, (⟨e.1.name, e.1.required, e.2⟩ : Member Outline) = m :=
      List.mem_map.mp listed
    refine ⟨(e.1.type, e.2), ?_, _, named⟩
    rw [Form.inner, List.zip_map_left]
    exact List.mem_map.mpr ⟨e, zipped, rfl⟩

/-- What is inside a form is inside its outline, under some step. -/
theorem Form.exists_step {f : Form} {os : List Outline} (length : f.inner.length = os.length)
    {e : Value × Outline} (zipped : e ∈ f.inner.zip os) :
    ∃ step, (step, e.2) ∈ (f.outline os).inner := by
  cases f with
  | leaf o => cases zipped
  | array composed items =>
    obtain ⟨o, rfl⟩ := List.length_eq_one_iff.mp length.symm
    cases List.mem_singleton.mp zipped
    exact ⟨_, List.mem_cons_self⟩
  | map values =>
    obtain ⟨o, rfl⟩ := List.length_eq_one_iff.mp length.symm
    cases List.mem_singleton.mp zipped
    exact ⟨_, List.mem_cons_self⟩
  | composition c first rest =>
    obtain ⟨o, os, rfl⟩ := List.exists_cons_of_length_eq_add_one length.symm
    exact Outline.exists_mem_inner (List.of_mem_zip zipped).2
  | record members =>
    rw [Form.inner, List.zip_map_left] at zipped
    obtain ⟨⟨m, o⟩, paired, rfl⟩ := List.mem_map.mp zipped
    have member : (⟨m.name, m.required, o⟩ : Member Outline) ∈
        (members.zip os).map fun e => ⟨e.1.name, e.1.required, e.2⟩ :=
      List.mem_map.mpr ⟨_, paired, rfl⟩
    exact ⟨"/properties/" ++ m.name, List.mem_map.mpr ⟨_, member, rfl⟩⟩

/-- The names in an outline, at whichever place, are those that the schema refers to. -/
theorem HasOutline.mem_names_iff {o : Outline} (outline : HasOutline g v o) (p name : String) :
    name ∈ o.names p ↔ Refers g v name := by
  induction outline generalizing p with
  | @intro v null f os form length inner ih =>
    have bare : (((f.outline os).orNull null).names p) = (f.outline os).names p := by
      simp only [Outline.names, Outline.visits_orNull]
    rw [bare]
    constructor
    · intro named
      rcases Form.of?_cases form with ⟨-, -, rfl⟩ | ⟨es, t, entries, -, text, -, rfl⟩ |
        ⟨es, entries, -, -, mapping⟩
      · rw [Form.outline, Outline.names_of_leaf rfl] at named
        cases named
      · rw [Form.outline, Outline.names_of_leaf rfl, Option.mem_toList] at named
        obtain ⟨r, parsed, rfl⟩ := Option.map_eq_some_iff.mp named
        rw [← Graph.fields_of_entries? entries] at text
        exact .here text parsed
      · obtain ⟨e, member, q, named⟩ := Form.exists_mem_zip mapping length named
        exact .inside form (List.of_mem_zip member).1 ((ih e member q).mp named)
    · intro refers
      cases refers with
      | here stated parsed =>
        cases form.symm.trans (Form.of?_of_parse? stated parsed)
        rw [Form.outline, Outline.names_of_leaf rfl]
        simp [Outline.bare, Outline.typeName?, parsed]
      | inside form' member refers =>
        cases form.symm.trans form'
        obtain ⟨o, zipped⟩ := Graph.exists_mem_zip length member
        obtain ⟨step, inside⟩ := Form.exists_step length zipped
        rw [Outline.names_eq]
        exact List.mem_append_right _
          (List.mem_flatMap.mpr ⟨_, inside, (ih _ zipped (p ++ step)).mpr refers⟩)

/-- A type with an empty text is made of references to a type without a name. -/
theorem Outline.eq_empty_of_mem_names {o : Outline} (empty : o.text = "") {p name : String}
    (named : name ∈ o.names p) : name = "" := by
  have letters := congrArg String.toList empty
  induction o generalizing p with
  | reference t =>
    rw [Outline.names_of_leaf rfl, Option.mem_toList] at named
    obtain ⟨r, parsed, rfl⟩ := Option.map_eq_some_iff.mp named
    have parsed' : Reference.parse? t = some r := parsed
    simpa [Outline.text, parsed'] using empty
  | composition c first rest ihFirst _ =>
    rw [Outline.text, Text.toList_joinWith_cons] at letters
    obtain ⟨start, others⟩ := List.append_eq_nil_iff.mp letters
    cases rest with
    | nil =>
      obtain ⟨i, inside, named⟩ := Outline.exists_mem_inner_of_names rfl named
      cases List.mem_singleton.mp inside
      exact ihFirst (String.toList_inj.mp start) named start
    | cons o rest =>
      have separated : c.operator.toList ≠ [] := by cases c <;> decide
      exact absurd others (by simp [separated])
  | any | basic | enumeration | unwritable | arrayWithoutItems =>
    rw [Outline.names_of_leaf rfl] at named
    cases named
  | array composed items =>
    rw [Outline.text] at letters
    split at letters <;> simp at letters
  | record members => simp [Outline.text, recordText] at letters
  | map values =>
    rw [Outline.text] at letters
    delta mapText at letters
    rw [String.toList_append, String.toList_append] at letters
    exact absurd (List.append_eq_nil_iff.mp letters).2 (by decide)
  | nullable o => simp [Outline.text] at letters

/-- A schema that resolves uses the names that it refers to and no others. -/
theorem mem_imports_iff {p : String} {r : Resolved} (success : resolve g v p = .ok r)
    (name : String) : name ∈ r.imports ↔ Refers g v name := by
  obtain ⟨o, outline, result⟩ := exists_outline_of_resolve success
  rw [Outline.result] at result
  split at result <;> cases result
  rw [Outline.resolved, Text.mem_distinct]
  exact outline.mem_names_iff p name

theorem eq_empty_of_mem_imports {p : String} {r : Resolved} (success : resolve g v p = .ok r)
    (empty : r.text = "") : ∀ name ∈ r.imports, name = "" := by
  obtain ⟨o, outline, result⟩ := exists_outline_of_resolve success
  rw [Outline.result] at result
  split at result <;> cases result
  exact fun name named => Outline.eq_empty_of_mem_names empty (Text.mem_distinct.mp named)

end Schema

end TypedClient
