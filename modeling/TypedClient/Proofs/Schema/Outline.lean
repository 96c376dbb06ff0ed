import TypedClient.Schema

/-!
# Outlines of schemas

The outline of a schema is what is left of it once its fields have been read in their order of
precedence: a tree in which each node says what kind of type stands there and holds only the schemas
that count. An outline has a text, a list of visits in the order of declaration, and may hold
offences: an array that says nothing about its items, a reference to something that is no component,
an enumeration with a value that cannot be written.

`Outline.result` is what the type of a schema with this outline has to be: the first offence, or the
text with the names of all references that were visited.
-/
namespace TypedClient.Schema

/-- A property of a record. -/
structure Member (α : Type) where
  name : String
  required : Bool
  type : α
  deriving DecidableEq, Repr

/-- The types that have nothing inside them. -/
inductive Basic where
  | number
  | boolean
  | string
  | bytes
  deriving DecidableEq, Repr

def Basic.text : Basic → String
  | .number => "number"
  | .boolean => "boolean"
  | .string => "string"
  | .bytes => binaryType

inductive Outline where
  /-- Any value at all. -/
  | any
  | reference (text : String)
  | basic (b : Basic)
  | enumeration (first : String) (rest : List String)
  /-- An enumeration with a value that has no text. -/
  | unwritable
  /-- An array; `composed` if its items name a composition, even one that does not count. -/
  | array (composed : Bool) (items : Outline)
  | arrayWithoutItems
  | composition (c : Composition) (first : Outline) (rest : List Outline)
  | record (members : List (Member Outline))
  | map (values : Outline)
  | nullable (inner : Outline)
  deriving Repr

namespace Outline

theorem sizeOf_type_lt {m : Member Outline} {members : List (Member Outline)}
    (member : m ∈ members) : sizeOf m.type < sizeOf members := by
  have smaller := List.sizeOf_lt_of_mem member
  cases m
  simp only [Member.mk.sizeOf_spec] at smaller ⊢
  omega

/-- The outline with null added to it, if it is to be. -/
def orNull (o : Outline) (null : Bool) : Outline := if null then .nullable o else o

/-- The outline without any null that was added. -/
def bare : Outline → Outline
  | .nullable o => o.bare
  | o => o

/-- A union or an intersection at the top. -/
def isCompound : Outline → Bool
  | .nullable _ => true
  | .enumeration _ rest => !rest.isEmpty
  | .composition _ first rest => !rest.isEmpty || first.isCompound
  | _ => false

/-- A single record or map. -/
def isRecord : Outline → Bool
  | .record _ | .map _ => true
  | .composition _ first rest => rest.isEmpty && first.isRecord
  | _ => false

/-- The name of the type that a reference is written as. -/
def typeName? : Outline → Option String
  | .reference t => (Reference.parse? t).map Reference.typeName
  | _ => none

/-- How a schema with this outline is written. -/
def text : Outline → String
  | .any => "any"
  | .reference t => ((Reference.parse? t).map Reference.typeName).getD ""
  | .basic b => b.text
  | .enumeration first rest => Text.joinWith " | " ((first :: rest).map TypeText.literal)
  | .unwritable | .arrayWithoutItems => ""
  | .array composed items =>
    if composed || items.isCompound then "(" ++ items.text ++ ")[]" else items.text ++ "[]"
  | .composition c first rest => Text.joinWith c.operator (first.text :: rest.map text)
  | .record members =>
    recordText (members.map fun m =>
      memberText (TypeText.propertyKey m.name) m.required m.type.text)
  | .map values => mapText values.text
  | .nullable inner => inner.text ++ " | null"
termination_by o => o
decreasing_by
  all_goals first
    | (have smaller := sizeOf_type_lt (by assumption); simp; omega)
    | (have smaller := List.sizeOf_lt_of_mem (by assumption); simp; omega)
    | (simp; done)
    | (simp; omega)

/-- The values of an enumeration. -/
def literals : Outline → List String
  | .enumeration first rest => first :: rest
  | .nullable o => o.literals
  | _ => []

/-- The outlines inside an outline, each with the step that leads to it. -/
def inner : Outline → List (String × Outline)
  | .array _ items => [("/items", items)]
  | .composition c first rest =>
    (first :: rest).zipIdx.map fun (member, index) =>
      ("/" ++ c.key ++ "/" ++ toString index, member)
  | .record members => members.map fun m => ("/properties/" ++ m.name, m.type)
  | .map values => [("/additionalProperties", values)]
  | .nullable o => o.inner
  | _ => []

theorem sizeOf_lt_of_mem_inner : (o : Outline) → ∀ c ∈ o.inner, sizeOf c.2 < sizeOf o
  | .array _ items => by simp [inner]
  | .composition c first rest => by
    intro e he
    simp only [inner, List.mem_map, Prod.exists] at he
    obtain ⟨m, i, hm, rfl⟩ := he
    have member := List.fst_mem_of_mem_zipIdx hm
    simp only [List.mem_cons] at member
    rcases member with rfl | member
    · simp only [composition.sizeOf_spec]
      omega
    · have smaller := List.sizeOf_lt_of_mem member
      simp only [composition.sizeOf_spec]
      omega
  | .record members => by
    simp only [inner, List.mem_map, forall_exists_index, and_imp]
    rintro _ m hm rfl
    have smaller := sizeOf_type_lt hm
    simp only [record.sizeOf_spec]
    omega
  | .map values => by simp [inner]
  | .nullable o => by
    intro c hc
    have smaller := sizeOf_lt_of_mem_inner o c hc
    simp only [nullable.sizeOf_spec]
    omega
  | .any | .reference _ | .basic _ | .enumeration _ _ | .unwritable | .arrayWithoutItems => by
    simp [inner]

theorem exists_mem_inner {c : Composition} {first : Outline} {rest : List Outline} {m : Outline}
    (member : m ∈ first :: rest) : ∃ step, (step, m) ∈ (composition c first rest).inner := by
  obtain ⟨i, hi, same⟩ := List.getElem_of_mem member
  refine ⟨"/" ++ c.key ++ "/" ++ toString i, List.mem_map.mpr ⟨(m, i), ?_, rfl⟩⟩
  rw [List.mk_mem_zipIdx_iff_getElem?, List.getElem?_eq_getElem hi, same]

/-- Every node of an outline with its place: a node before what is inside it, and this in the order
in which it is declared. -/
def visits (p : String) (o : Outline) : List (String × Outline) :=
  (p, o.bare) :: o.inner.attach.flatMap fun c => c.1.2.visits (p ++ c.1.1)
termination_by o
decreasing_by exact sizeOf_lt_of_mem_inner o _ c.2

/-- The names of all references that are visited, as often as they are. -/
def names (p : String) (o : Outline) : List String := (o.visits p).filterMap fun n => n.2.typeName?

/-- What is wrong with a node by itself. -/
def offence? : String × Outline → Option Stop
  | (p, .reference t) =>
    if (Reference.parse? t).isSome then none else some (.failure (.unsupportedReference t (some p)))
  | (p, .arrayWithoutItems) => some (.failure (.schema .arrayWithoutItems (some p)))
  | (_, .unwritable) => some (.malformed .numberTooLong)
  | _ => none

/-- The type of a schema with this outline. -/
def resolved (p : String) (o : Outline) : Resolved := ⟨o.text, Text.distinct (o.names p), o.literals⟩

/-- What resolving a schema with this outline comes to: the first offence, if there is one. -/
def result (p : String) (o : Outline) : Result Resolved :=
  match (o.visits p).findSome? offence? with
  | some s => .error s
  | none => .ok (o.resolved p)

theorem visits_eq (p : String) (o : Outline) :
    o.visits p = (p, o.bare) :: o.inner.flatMap fun c => c.2.visits (p ++ c.1) := by
  rw [visits]
  simp only [List.flatMap_subtype, List.unattach_attach]

/-- What holds of every node that is visited holds of the first and of those inside it. -/
theorem forall_visits_iff {q : Outline → Prop} {p : String} {o : Outline} :
    (∀ c ∈ o.visits p, q c.2) ↔ q o.bare ∧ ∀ i ∈ o.inner, ∀ c ∈ i.2.visits (p ++ i.1), q c.2 := by
  rw [visits_eq]
  simp only [List.mem_cons, List.mem_flatMap, forall_eq_or_imp, forall_exists_index, and_imp]
  exact and_congr Iff.rfl ⟨fun all i hi c hc => all c i hi hc, fun all c i hi hc => all i hi c hc⟩

@[simp] theorem visits_nullable (p : String) (o : Outline) :
    (Outline.nullable o).visits p = o.visits p := by
  rw [visits_eq, visits_eq p o]
  rfl

@[simp] theorem visits_orNull (p : String) (o : Outline) (null : Bool) :
    (o.orNull null).visits p = o.visits p := by
  cases null <;> simp [orNull]

/-- To show something of every outline it is enough to show it of one whose parts have it. -/
@[elab_as_elim, induction_eliminator]
theorem induct {motive : Outline → Prop} (any : motive .any)
    (reference : ∀ t, motive (.reference t)) (basic : ∀ b, motive (.basic b))
    (enumeration : ∀ first rest, motive (.enumeration first rest)) (unwritable : motive .unwritable)
    (array : ∀ composed items, motive items → motive (.array composed items))
    (arrayWithoutItems : motive .arrayWithoutItems)
    (composition : ∀ c first rest, motive first → (∀ o ∈ rest, motive o) →
      motive (.composition c first rest))
    (record : ∀ members, (∀ m ∈ members, motive m.type) → motive (.record members))
    (map : ∀ values, motive values → motive (.map values))
    (nullable : ∀ o, motive o → motive (.nullable o)) : ∀ o, motive o
  | .any => any
  | .reference t => reference t
  | .basic b => basic b
  | .enumeration first rest => enumeration first rest
  | .unwritable => unwritable
  | .array composed items =>
    array composed items (induct any reference basic enumeration unwritable array
      arrayWithoutItems composition record map nullable items)
  | .arrayWithoutItems => arrayWithoutItems
  | .composition c first rest =>
    composition c first rest (induct any reference basic enumeration unwritable array
      arrayWithoutItems composition record map nullable first) fun o _ =>
        induct any reference basic enumeration unwritable array arrayWithoutItems composition
          record map nullable o
  | .record members =>
    record members fun m _ => induct any reference basic enumeration unwritable array
      arrayWithoutItems composition record map nullable m.type
  | .map values =>
    map values (induct any reference basic enumeration unwritable array arrayWithoutItems
      composition record map nullable values)
  | .nullable o =>
    nullable o (induct any reference basic enumeration unwritable array arrayWithoutItems
      composition record map nullable o)
termination_by o => o
decreasing_by
  all_goals first
    | (have smaller := sizeOf_type_lt (by assumption); simp; omega)
    | (have smaller := List.sizeOf_lt_of_mem (by assumption); simp; omega)
    | (simp; done)
    | (simp; omega)

end Outline

end TypedClient.Schema
