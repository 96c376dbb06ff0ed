import TypedClient.Proofs.Schema.Outline

/-!
# Reading a schema

`Form.of?` reads the fields of one schema in their order of precedence: a reference goes before
everything; then come numbers, booleans, arrays and strings; then the first composition that has
members, the properties, the additional properties. It says what kind of type stands there and keeps
the schemas inside it as they are. A schema with a field of another shape than is asked for has no
form.

`HasOutline` goes on in this way inside each schema that counts. A schema that meets itself has no
outline, and no schema has two.
-/
namespace TypedClient.Schema

/-- One schema with the schemas inside it left as they are. -/
inductive Form where
  | leaf (o : Outline)
  | array (composed : Bool) (items : Value)
  | composition (c : Composition) (first : Value) (rest : List Value)
  | record (members : List (Member Value))
  | map (values : Value)
  deriving Repr

namespace Form

/-- A schema of a string kind; the format for bytes goes before the values of an enumeration. -/
def ofString? (g : Graph) (es : Entries) : Option Form :=
  if (es.field "format").isText "binary" then some (.leaf (.basic .bytes))
  else
    match g.optionalElements (es.field "enum") with
    | .error _ => none
    | .ok values =>
      match values.filter fun v => v ≠ .null with
      | [] => some (.leaf (.basic .string))
      | first :: rest =>
        if (first :: rest).all g.hasText then
          some (.leaf (.enumeration (g.display first) (rest.map g.display)))
        else some (.leaf .unwritable)

def member? (required : List Scalar) (e : Scalar × Value) : Option (Member Value) :=
  match e.1 with
  | .text name => some ⟨name, required.any e.1.same, e.2⟩
  | _ => none

/-- A schema by its structure. -/
def ofStructure? (g : Graph) (es : Entries) : Option Form :=
  match composition? g es with
  | some (c, members) =>
    match g.elements? members with
    | some (first :: rest) => some (.composition c first rest)
    | _ => none
  | none =>
    match g.entries? (es.field "properties") with
    | some properties =>
      match requiredNames g es with
      | .error _ => none
      | .ok required => (properties.mapM (member? required)).map .record
    | none =>
      let additional := es.field "additionalProperties"
      if additional = .null ∨ additional = .scalar (.bool false) then
        some (.leaf (if (es.field "type").isText "object" then .record [] else .any))
      else some (.map additional)

def ofItems (g : Graph) (items : Value) : Form :=
  if items = .null then .leaf .arrayWithoutItems
  else .array (!isReference g items && isComposed g items) items

/-- A mapping that is no reference. -/
def ofMapping? (g : Graph) (es : Entries) : Option Form :=
  match Kind.ofType g (es.field "type") with
  | .error _ => none
  | .ok .number => some (.leaf (.basic .number))
  | .ok .boolean => some (.leaf (.basic .boolean))
  | .ok .array => some (ofItems g (es.field "items"))
  | .ok .string => ofString? g es
  | .ok .structural => ofStructure? g es

/-- How a value is read as a schema, and whether null is added to it. -/
def of? (g : Graph) (v : Value) : Option (Bool × Form) :=
  match g.entries? v with
  | none => some (false, .leaf .any)
  | some es =>
    if g.truthy (es.field "$ref") then
      match es.field "$ref" with
      | .scalar (.text t) => some (false, .leaf (.reference t))
      | _ => none
    else (ofMapping? g es).map fun f => (g.truthy (es.field "nullable"), f)

/-- The schemas inside a form. -/
def inner : Form → List Value
  | .leaf _ => []
  | .array _ items => [items]
  | .composition _ first rest => first :: rest
  | .record members => members.map (·.type)
  | .map values => [values]

/-- The outline of a form from the outlines of the schemas inside it, one for each. -/
def outline : Form → List Outline → Outline
  | .leaf o, _ => o
  | .array composed _, [o] => .array composed o
  | .composition c _ _, o :: os => .composition c o os
  | .record members, os => .record ((members.zip os).map fun e => ⟨e.1.name, e.1.required, e.2⟩)
  | .map _, [o] => .map o
  | _, _ => .any

end Form

namespace Form

/-- What a mapping that is no reference is read as: an outline without a name and with nothing
inside it, or a form around schemas that are found in its fields. -/
theorem ofMapping?_cases {g : Graph} {es : Entries} {f : Form} (mapping : ofMapping? g es = some f) :
    (∃ o, f = .leaf o ∧ o.bare.typeName? = none ∧ o.inner = []) ∨
    (∃ composed, f = .array composed (es.field "items")) ∨
    (∃ c first rest, f = .composition c first rest ∧
      g.elements? (es.field c.key) = some (first :: rest)) ∨
    (∃ properties required members, f = .record members ∧
      g.entries? (es.field "properties") = some properties ∧
      properties.mapM (member? required) = some members) ∨
    f = .map (es.field "additionalProperties") := by
  unfold ofMapping? at mapping
  split at mapping
  · cases mapping
  · cases mapping
    exact .inl ⟨_, rfl, rfl, rfl⟩
  · cases mapping
    exact .inl ⟨_, rfl, rfl, rfl⟩
  · unfold ofItems at mapping
    split at mapping <;> cases mapping
    · exact .inl ⟨_, rfl, rfl, rfl⟩
    · exact .inr (.inl ⟨_, rfl⟩)
  · unfold ofString? at mapping
    split at mapping
    · cases mapping
      exact .inl ⟨_, rfl, rfl, rfl⟩
    · split at mapping
      · cases mapping
      · split at mapping
        · cases mapping
          exact .inl ⟨_, rfl, rfl, rfl⟩
        · split at mapping <;> cases mapping <;> exact .inl ⟨_, rfl, rfl, rfl⟩
  · unfold ofStructure? at mapping
    split at mapping
    · next c members composed =>
      split at mapping <;> cases mapping
      next elements =>
      obtain ⟨c', -, same⟩ := List.mem_map.mp (List.mem_of_find?_eq_some composed)
      cases same
      exact .inr (.inr (.inl ⟨c, _, _, rfl, elements⟩))
    · split at mapping
      · next properties entries =>
        split at mapping
        · cases mapping
        · next required _ =>
          obtain ⟨members, named, rfl⟩ := Option.map_eq_some_iff.mp mapping
          exact .inr (.inr (.inr (.inl ⟨properties, required, members, rfl, entries, named⟩)))
      · simp only at mapping
        split at mapping <;> cases mapping
        · refine .inl ⟨_, rfl, ?_⟩
          split <;> exact ⟨rfl, rfl⟩
        · exact .inr (.inr (.inr (.inr rfl)))

end Form

/-- The outline of a value that is read as a schema. -/
inductive HasOutline (g : Graph) : Value → Outline → Prop
  | intro {v : Value} {null : Bool} {f : Form} {os : List Outline}
    (form : Form.of? g v = some (null, f)) (length : f.inner.length = os.length)
    (inner : ∀ e ∈ f.inner.zip os, HasOutline g e.1 e.2) :
    HasOutline g v ((f.outline os).orNull null)

theorem eq_of_zip {α β : Type} {r : α → β → Prop} {vs : List α} {os os' : List β}
    (length : vs.length = os.length) (length' : vs.length = os'.length)
    (related : ∀ e ∈ vs.zip os', r e.1 e.2)
    (unique : ∀ e ∈ vs.zip os, ∀ o', r e.1 o' → e.2 = o') : os = os' := by
  induction vs generalizing os os' with
  | nil =>
    rw [List.length_eq_zero_iff.mp length.symm, List.length_eq_zero_iff.mp length'.symm]
  | cons v vs ih =>
    obtain ⟨o, os, rfl⟩ := List.exists_cons_of_length_eq_add_one length.symm
    obtain ⟨o', os', rfl⟩ := List.exists_cons_of_length_eq_add_one length'.symm
    simp only [List.zip_cons_cons, List.mem_cons, forall_eq_or_imp] at related unique
    rw [unique.1 o' related.1, ih (by simpa using length) (by simpa using length') related.2 unique.2]

/-- No schema has two outlines. -/
theorem HasOutline.unique {g : Graph} {v : Value} {o o' : Outline} (h : HasOutline g v o)
    (h' : HasOutline g v o') : o = o' := by
  induction h generalizing o' with
  | intro form length inner ih =>
    obtain ⟨form', length', inner'⟩ := h'
    obtain ⟨rfl, rfl⟩ : _ ∧ _ := by simpa using form.symm.trans form'
    rw [eq_of_zip length length' inner' ih]

end TypedClient.Schema
