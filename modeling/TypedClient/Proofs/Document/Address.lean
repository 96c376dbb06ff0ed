import TypedClient.Proofs.Discriminator.Walk
import TypedClient.Proofs.Document.Unfolding

/-!
# Addresses in documents

The address of a value lists the keys that lead to it from mapping to mapping. Where no node stands in
two places a node has one address at most, so nodes are told apart by the keys above them. A document
is whole if the graph has all its nodes.
-/
namespace TypedClient.Graph

/-- The graph has every node that the value contains. -/
def Whole (g : Graph) (v : Value) : Prop := ∀ id : Nat, g.Contains v (.node id) → id < g.nodes.size

/-- A graph that is made from a tree has all nodes of it. -/
theorem whole_ofTree (t : Tree) : (ofTree t).1.Whole (ofTree t).2 := by
  intro id contains
  obtain ⟨place, here⟩ := contains.exists_place
  exact ((writes_addTree empty t).new 0 place id here).2

/-- Goes down from mapping to mapping and gives the keys on the way with the value at the end. -/
def descend (g : Graph) : Value → List Nat → Option (List Scalar × Value)
  | v, [] => some ([], v)
  | v, index :: place =>
    (g.fields v)[index]?.bind fun e => (descend g e.2 place).map fun r => (e.1 :: r.1, r.2)

/-- The value stands in the first one below these keys, outermost first. -/
def Addressed (g : Graph) (root : Value) (address : List Scalar) (v : Value) : Prop :=
  ∃ place, g.descend root place = some (address, v)

variable {g : Graph} {root v w : Value} {address : List Scalar}

theorem fields_eq_nil_or (g : Graph) (v : Value) :
    g.fields v = [] ∨ g.parts v = (g.fields v).map (·.2) := by
  cases entries : g.entries? v with
  | none => exact .inl (fields_of_other entries)
  | some es => exact .inr (by rw [fields_of_entries? entries, parts_of_entries? entries])

/-- A place that leads through mappings is a place. -/
theorem at?_of_descend {place : List Nat} (found : g.descend root place = some (address, v)) :
    g.at? root place = some v := by
  induction place generalizing root address with
  | nil =>
    cases found
    rfl
  | cons index place ih =>
    obtain ⟨e, here, found⟩ := Option.bind_eq_some_iff.mp found
    obtain ⟨r, below, same⟩ := Option.map_eq_some_iff.mp found
    cases same
    rcases fields_eq_nil_or g root with none | parts
    · rw [none] at here
      cases here
    · rw [at?, parts, List.getElem?_map, here]
      exact ih below

/-- Going down further adds keys at the end. -/
theorem descend_append {place : List Nat} (found : g.descend root place = some (address, v))
    (rest : List Nat) :
    g.descend root (place ++ rest) = (g.descend v rest).map fun r => (address ++ r.1, r.2) := by
  induction place generalizing root address with
  | nil =>
    cases found
    rw [List.nil_append]
    exact Option.map_id'.symm
  | cons step place ih =>
    obtain ⟨e, here, found⟩ := Option.bind_eq_some_iff.mp found
    obtain ⟨r, below, same⟩ := Option.map_eq_some_iff.mp found
    cases same
    rw [List.cons_append, descend, here, Option.bind_some, ih below, Option.map_map]
    rfl

namespace Addressed

theorem refl (g : Graph) (v : Value) : g.Addressed v [] v := ⟨[], rfl⟩

theorem entry {key : Scalar} (addressed : g.Addressed root address v)
    (member : (key, w) ∈ g.fields v) : g.Addressed root (address ++ [key]) w := by
  obtain ⟨place, found⟩ := addressed
  obtain ⟨index, here⟩ := List.mem_iff_getElem?.mp member
  exact ⟨place ++ [index], by rw [descend_append found, descend, here]; rfl⟩

/-- A field stands below its name, unless it is left out. -/
theorem field (addressed : g.Addressed root address v) (name : String) :
    (g.fields v).field name = .null ∨
      g.Addressed root (address ++ [.text name]) ((g.fields v).field name) :=
  (exists_index_field (g.fields v) name).imp_right fun ⟨_, here⟩ =>
    addressed.entry (List.mem_of_getElem? here)

/-- A field that is a mapping is not left out. -/
theorem field_of_entries? (addressed : g.Addressed root address v) {name : String} {es : Entries}
    (entries : g.entries? ((g.fields v).field name) = some es) :
    g.Addressed root (address ++ [.text name]) ((g.fields v).field name) := by
  refine (addressed.field name).resolve_left fun null => ?_
  rw [null] at entries
  cases entries

theorem field_entry (addressed : g.Addressed root address v) {name : String} {e : Scalar × Value}
    (member : e ∈ g.fields ((g.fields v).field name)) :
    g.Addressed root (address ++ [.text name] ++ [e.1]) e.2 := by
  rcases addressed.field name with null | addressed
  · rw [null] at member
    cases member
  · exact addressed.entry member

theorem contains (addressed : g.Addressed root address v) : g.Contains root v := by
  obtain ⟨place, found⟩ := addressed
  induction place generalizing root address with
  | nil =>
    cases found
    exact .refl g _
  | cons index place ih =>
    obtain ⟨e, here, found⟩ := Option.bind_eq_some_iff.mp found
    obtain ⟨r, below, same⟩ := Option.map_eq_some_iff.mp found
    cases same
    exact .trans (contains_of_mem_fields (List.mem_of_getElem? here)) (ih below)

end Addressed

theorem at?_append {place : List Nat} (found : g.at? root place = some v) (rest : List Nat) :
    g.at? root (place ++ rest) = g.at? v rest := by
  induction place generalizing root with
  | nil =>
    cases found
    rfl
  | cons index place ih =>
    obtain ⟨part, here, below⟩ := Option.bind_eq_some_iff.mp found
    rw [List.cons_append, at?, here]
    exact ih below

/-- On the way down there is one key for each step. -/
theorem length_of_descend {place : List Nat} (found : g.descend root place = some (address, v)) :
    address.length = place.length := by
  induction place generalizing root address with
  | nil =>
    cases found
    rfl
  | cons index place ih =>
    obtain ⟨e, -, found⟩ := Option.bind_eq_some_iff.mp found
    obtain ⟨r, below, same⟩ := Option.map_eq_some_iff.mp found
    cases same
    exact congrArg (· + 1) (ih below)

/-- A node of an unshared document has one address at most. -/
theorem Unshared.address_eq (unshared : g.Unshared root) {address' : List Scalar} {id : NodeId}
    (here : g.Addressed root address (.node id)) (there : g.Addressed root address' (.node id)) :
    address = address' := by
  obtain ⟨place, found⟩ := here
  obtain ⟨place', found'⟩ := there
  obtain rfl := unshared place place' id (at?_of_descend found) (at?_of_descend found')
  cases found.symm.trans found'
  rfl

/-- A node that is contained in what stands at an address has none but those that go on from it. -/
theorem Unshared.exists_descend (unshared : g.Unshared root) {address' : List Scalar} {id : NodeId}
    (above : g.Addressed root address v) (contains : g.Contains v (.node id))
    (here : g.Addressed root address' (.node id)) :
    ∃ rest below, g.descend v rest = some (below, .node id) ∧ address' = address ++ below := by
  obtain ⟨place, found⟩ := above
  obtain ⟨rest, below⟩ := contains.exists_place
  obtain ⟨place', found'⟩ := here
  have whole := (at?_append (at?_of_descend found) rest).trans below
  obtain rfl := unshared _ place' id whole (at?_of_descend found')
  rw [descend_append found] at found'
  obtain ⟨⟨below, w⟩, onward, same⟩ := Option.map_eq_some_iff.mp found'
  cases same
  exact ⟨rest, below, onward, rfl⟩

/-- What stands at an address and contains a node with a shorter one is that node. -/
theorem Unshared.eq_of_length_le (unshared : g.Unshared root) {address' : List Scalar} {id : NodeId}
    (above : g.Addressed root address v) (contains : g.Contains v (.node id))
    (here : g.Addressed root address' (.node id)) (short : address'.length ≤ address.length) :
    v = .node id := by
  obtain ⟨rest, below, onward, rfl⟩ := unshared.exists_descend above contains here
  have length := length_of_descend onward
  rw [List.length_append] at short
  obtain rfl := List.length_eq_zero_iff.mp (by omega : rest.length = 0)
  cases onward
  rfl

/-- In an unshared document nothing contains itself. -/
theorem Unshared.ends (unshared : g.Unshared root) (contains : g.Contains root v) :
    Acc g.IsPart v := by
  refine acc_of_acyclic (fun w u part => exists_node_of_mem_parts part) fun w below loop => ?_
  obtain ⟨u, back, part⟩ := Relation.TransGen.tail'_iff.mp loop
  obtain ⟨id, rfl, -⟩ := exists_node_of_mem_parts part
  obtain ⟨place, here⟩ := (contains.trans below).exists_place
  obtain ⟨rest, there⟩ := Contains.exists_place (g := g) back
  obtain ⟨index, first⟩ := List.mem_iff_getElem?.mp part
  have again : g.at? root (place ++ index :: rest) = some (.node id) := by
    rw [at?_append here, at?, first, Option.bind_some, there]
  have lengths := congrArg List.length (unshared _ _ id again here)
  rw [List.length_append, List.length_cons] at lengths
  omega

/-- Each value of a whole unshared document has a tree. -/
theorem Unshared.exists_unfolds (unshared : g.Unshared root) (whole : g.Whole root)
    (contains : g.Contains root v) : ∃ t, g.Unfolds v t := by
  refine Graph.exists_unfolds (unshared.ends contains) fun w below => ?_
  cases w with
  | scalar s => simp [shape]
  | node id =>
    have inside := whole id (contains.trans below)
    rw [shape, Array.getElem?_eq_getElem inside]
    cases g.nodes[id] <;> simp [Node.shape]

end TypedClient.Graph
