import Mathlib.Data.List.Forall2
import Mathlib.Logic.Relation
import TypedClient.Document.Tree

/-!
# Parts of documents

The shape of a value says what kind of value it is, with its keys or members; its parts are the
values that stand directly in it. A value contains what stands at it and below it, and it is unshared
if no node stands in two places.

A graph has finitely many nodes, so a relation between values that leads from node to node and never
back to where it came from ends.
-/
namespace TypedClient

/-- What is left of a value without its parts. -/
inductive Shape where
  | scalar (s : Scalar)
  | list
  | mapping (keys : List Scalar)
  | pair
  | set (members : List Scalar)
  /-- A node that the graph does not have. -/
  | missing
  deriving DecidableEq, Repr

namespace Node

def shape : Node → Shape
  | .list _ => .list
  | .mapping entries => .mapping (Entries.keys entries)
  | .pair _ _ => .pair
  | .set members => .set members

def parts : Node → List Value
  | .list items => items
  | .mapping entries => entries.map (·.2)
  | .pair first second => [first, second]
  | .set _ => []

end Node

namespace Entries

theorem mem_of_lookup?_text {es : Entries} {name : String} {v : Value}
    (found : lookup? es (.text name) = some v) : (Scalar.text name, v) ∈ es := by
  obtain ⟨⟨key, v'⟩, here, rfl⟩ := Option.map_eq_some_iff.mp found
  have same := List.find?_some here
  obtain rfl := Scalar.same_text_iff.mp same
  exact List.mem_of_find?_eq_some here

/-- In a mapping that has each key once, the value of a key is found where the key stands. -/
theorem lookup?_text_of_mem {es : Entries} (distinct : (keys es).Nodup) {name : String} {v : Value}
    (member : (Scalar.text name, v) ∈ es) : lookup? es (.text name) = some v := by
  unfold lookup?
  induction es with
  | nil => cases member
  | cons e es ih =>
    rw [keys, List.map_cons, List.nodup_cons] at distinct
    rw [List.find?_cons]
    rcases List.mem_cons.mp member with rfl | behind
    · rw [Scalar.same_text_iff.mpr rfl]
      rfl
    · have other : e.1.same (.text name) = false := by
        rw [Bool.eq_false_iff, ne_eq, Scalar.same_text_iff]
        intro again
        exact distinct.1 (again ▸ List.mem_map_of_mem behind)
      rw [other]
      exact ih distinct.2 behind

end Entries

namespace Graph

def shape (g : Graph) : Value → Shape
  | .scalar s => .scalar s
  | .node id => (g.nodes[id]?.map Node.shape).getD .missing

def parts (g : Graph) : Value → List Value
  | .scalar _ => []
  | .node id => (g.nodes[id]?.map Node.parts).getD []

/-- The first value stands directly in the second. -/
def IsPart (g : Graph) (w v : Value) : Prop := w ∈ g.parts v

/-- The second value stands at the first or below it. -/
def Contains (g : Graph) (v w : Value) : Prop := Relation.ReflTransGen g.IsPart w v

/-- The value at a place, which says at each step which part to go to. -/
def at? (g : Graph) : Value → List Nat → Option Value
  | v, [] => some v
  | v, index :: place => (g.parts v)[index]?.bind fun part => at? g part place

/-- No node stands in two places. -/
def Unshared (g : Graph) (v : Value) : Prop :=
  ∀ place place' id, g.at? v place = some (.node id) → g.at? v place' = some (.node id) →
    place = place'

variable {g : Graph} {u v w : Value}

/-- What the view of a value shows is its shape and its parts. -/
theorem view_cases (g : Graph) (v : Value) :
    (∃ s, v = .scalar s) ∨
    (g.view v = .scalar .null ∧ g.shape v = .missing ∧ g.parts v = []) ∨
    (∃ id items, g.view v = .list id items ∧ g.shape v = .list ∧ g.parts v = items) ∨
    (∃ id es, g.view v = .mapping id es ∧ g.shape v = .mapping (Entries.keys es) ∧
      g.parts v = es.map (·.2)) ∨
    (∃ id first second, g.view v = .pair id first second ∧ g.shape v = .pair ∧
      g.parts v = [first, second]) ∨
    (∃ id members, g.view v = .set id members ∧ g.shape v = .set members ∧ g.parts v = []) := by
  cases v with
  | scalar s => exact .inl ⟨s, rfl⟩
  | node id =>
    simp only [view, shape, parts]
    cases g.nodes[id]? with
    | none => exact .inr (.inl ⟨rfl, rfl, rfl⟩)
    | some n =>
      cases n with
      | list items => exact .inr (.inr (.inl ⟨id, items, rfl, rfl, rfl⟩))
      | mapping es => exact .inr (.inr (.inr (.inl ⟨id, es, rfl, rfl, rfl⟩)))
      | pair first second =>
        exact .inr (.inr (.inr (.inr (.inl ⟨id, first, second, rfl, rfl, rfl⟩))))
      | set members => exact .inr (.inr (.inr (.inr (.inr ⟨id, members, rfl, rfl, rfl⟩))))

namespace Contains

theorem refl (g : Graph) (v : Value) : g.Contains v v := Relation.ReflTransGen.refl

theorem trans (upper : g.Contains u v) (lower : g.Contains v w) : g.Contains u w :=
  Relation.ReflTransGen.trans lower upper

theorem of_part (part : w ∈ g.parts v) : g.Contains v w := .single part

/-- What a value contains is the value itself or contained in one of its parts. -/
theorem cases (contains : g.Contains v w) : w = v ∨ ∃ part ∈ g.parts v, g.Contains part w := by
  rcases Relation.ReflTransGen.cases_tail contains with same | ⟨part, inside, member⟩
  · exact .inl same.symm
  · exact .inr ⟨part, member, inside⟩

/-- Whatever a value contains stands at a place of it. -/
theorem exists_place (contains : g.Contains v w) : ∃ place, g.at? v place = some w := by
  induction contains with
  | refl => exact ⟨[], rfl⟩
  | @tail u v _ member ih =>
    obtain ⟨place, here⟩ := ih
    obtain ⟨index, part⟩ := List.mem_iff_getElem?.mp member
    exact ⟨index :: place, by rw [at?, part, Option.bind_some, here]⟩

end Contains

/-- Only nodes have parts. -/
theorem exists_node_of_mem_parts (part : w ∈ g.parts v) :
    ∃ id, v = .node id ∧ id < g.nodes.size := by
  cases v with
  | scalar s => cases part
  | node id =>
    refine ⟨id, rfl, ?_⟩
    rw [parts] at part
    cases node : g.nodes[id]? with
    | none =>
      rw [node] at part
      cases part
    | some n => exact (Array.getElem?_eq_some_iff.mp node).1

/-- The keys of a mapping are its shape and its values are its parts. -/
theorem shape_parts_of_entries? {es : Entries} (entries : g.entries? v = some es) :
    g.shape v = .mapping (Entries.keys es) ∧ g.parts v = es.map (·.2) := by
  unfold entries? at entries
  rcases view_cases g v with ⟨s, rfl⟩ | ⟨view, -⟩ | ⟨id, items, view, -⟩ |
    ⟨id, es', view, shape, parts⟩ | ⟨id, first, second, view, -⟩ | ⟨id, members, view, -⟩
  case inr.inr.inr.inl =>
    rw [view] at entries
    cases entries
    exact ⟨shape, parts⟩
  case inl => cases entries
  all_goals
    rw [view] at entries
    cases entries

theorem parts_of_entries? {es : Entries} (entries : g.entries? v = some es) :
    g.parts v = es.map (·.2) :=
  (shape_parts_of_entries? entries).2

/-- The value of a field stands under its name, unless the mapping does not have it. -/
theorem exists_index_field (es : Entries) (name : String) :
    es.field name = .null ∨ ∃ index : Nat, es[index]? = some (Scalar.text name, es.field name) := by
  unfold Entries.field Entries.lookup?
  cases found : es.find? fun e => e.1.same (.text name) with
  | none => exact .inl rfl
  | some e =>
    have same := List.find?_some found
    obtain ⟨index, here⟩ := List.mem_iff_getElem?.mp (List.mem_of_find?_eq_some found)
    refine .inr ⟨index, ?_⟩
    rw [here, ← Scalar.same_text_iff.mp same]
    rfl

/-- A field of a mapping is one of its parts, unless the mapping does not have it. -/
theorem field_mem_parts {es : Entries} (entries : g.entries? v = some es) (name : String) :
    es.field name = .null ∨ es.field name ∈ g.parts v := by
  refine (exists_index_field es name).imp_right fun ⟨index, here⟩ => ?_
  rw [parts_of_entries? entries]
  exact List.mem_map_of_mem (List.mem_of_getElem? here)

/-- The elements of a value are scalars or parts of it. -/
theorem mem_parts_of_elements? {vs : List Value} (elements : g.elements? v = some vs) {w : Value}
    (member : w ∈ vs) : (∃ s, w = .scalar s) ∨ w ∈ g.parts v := by
  unfold elements? at elements
  rcases view_cases g v with ⟨s, rfl⟩ | ⟨view, -⟩ | ⟨id, items, view, -, parts⟩ | ⟨id, es, view, -⟩ |
    ⟨id, first, second, view, -, parts⟩ | ⟨id, members, view, -⟩
  · rw [view_scalar] at elements
    cases s with
    | text s =>
      cases elements
      obtain ⟨c, -, rfl⟩ := List.mem_map.mp member
      exact .inl ⟨_, rfl⟩
    | bytes bs =>
      cases elements
      obtain ⟨b, -, rfl⟩ := List.mem_map.mp member
      exact .inl ⟨_, rfl⟩
    | _ => cases elements
  all_goals
    rw [view] at elements
    cases elements
  · exact .inr (parts ▸ member)
  · obtain ⟨e, -, rfl⟩ := List.mem_map.mp member
    exact .inl ⟨_, rfl⟩
  · exact .inr (parts ▸ member)
  · obtain ⟨s, -, rfl⟩ := List.mem_map.mp member
    exact .inl ⟨_, rfl⟩

/-- There are no nodes in a scalar. -/
theorem not_contains_scalar (s : Scalar) (id : NodeId) : ¬g.Contains (.scalar s) (.node id) := by
  intro contains
  rcases contains.cases with same | ⟨part, member, -⟩
  · cases same
  · cases member

/-- What stands in one field of an unshared mapping does not stand in another one. -/
theorem Unshared.fields_apart {es : Entries} (unshared : g.Unshared v)
    (entries : g.entries? v = some es) {name name' : String} (other : name ≠ name') {id : NodeId}
    (inside : g.Contains (es.field name) (.node id)) :
    ¬g.Contains (es.field name') (.node id) := by
  intro inside'
  rcases exists_index_field es name with null | ⟨index, here⟩
  · rw [null] at inside
    exact not_contains_scalar _ _ inside
  · rcases exists_index_field es name' with null | ⟨index', here'⟩
    · rw [null] at inside'
      exact not_contains_scalar _ _ inside'
    · obtain ⟨place, found⟩ := inside.exists_place
      obtain ⟨place', found'⟩ := inside'.exists_place
      have at_field : ∀ (index : Nat) (key : Scalar) (part : Value) (place : List Nat),
          es[index]? = some (key, part) → g.at? v (index :: place) = g.at? part place := by
        intro index key part place here
        rw [at?, parts_of_entries? entries, List.getElem?_map, here]
        rfl
      have same := unshared (index :: place) (index' :: place') id
        ((at_field index _ _ place here).trans found)
        ((at_field index' _ _ place' here').trans found')
      obtain ⟨rfl, -⟩ := List.cons.inj same
      cases here.symm.trans here'
      exact other rfl

end Graph

/-! ### Relations that end -/

theorem Acc.not_transGen_self {α : Type} {r : α → α → Prop} {a : α} (ends : Acc r a) :
    ¬Relation.TransGen r a a := by
  intro loop
  have closed := ends.transGen
  clear ends
  induction closed with
  | intro a _ ih => exact ih a loop loop

namespace Graph

section Ends

variable {g : Graph} {r : Value → Value → Prop}

/-- What leads to a node leads to all that the node leads to. -/
theorem above_cons {w : Value} {id : NodeId} {active : List NodeId} (step : r w (.node id))
    (above : ∀ id' ∈ active, Relation.TransGen r (.node id) (.node id')) :
    ∀ id' ∈ id :: active, Relation.TransGen r w (.node id') := by
  intro id' member
  rcases List.mem_cons.mp member with rfl | member
  · exact .single step
  · exact .head step (above id' member)

variable (source : ∀ w v, r w v → ∃ id, v = .node id ∧ id < g.nodes.size)

include source

theorem acc_within {active : List NodeId} {v : Value}
    (above : ∀ id ∈ active, Relation.TransGen r v (.node id))
    (acyclic : ∀ w, Relation.ReflTransGen r w v → ¬Relation.TransGen r w w) : Acc r v := by
  induction rest : g.unvisited active using Nat.strongRecOn generalizing active v with
  | ind n ih =>
    refine ⟨v, fun w inside => ?_⟩
    obtain ⟨id, rfl, bound⟩ := source w v inside
    have new : id ∉ active := fun again => acyclic _ .refl (above id again)
    exact ih _ (rest ▸ unvisited_cons_lt bound new) (above_cons inside above)
      (fun u below => acyclic u (.tail below inside)) rfl

/-- A relation that leads from the nodes of a graph and never leads back ends. -/
theorem acc_of_acyclic {v : Value}
    (acyclic : ∀ w, Relation.ReflTransGen r w v → ¬Relation.TransGen r w w) : Acc r v :=
  acc_within source (List.forall_mem_nil _) acyclic

end Ends

end Graph

end TypedClient
