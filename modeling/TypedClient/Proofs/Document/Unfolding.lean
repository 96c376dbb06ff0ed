import TypedClient.Proofs.Document.Part

/-!
# Documents written out as trees

A value unfolds to a tree if the two have one shape and the parts of the value unfold to the parts of
the tree: every node is written out at each of its places. A value has such a tree exactly if no node
in it contains itself, and then `Graph.unfold` gives it.

A tree that is added to a graph has nodes of its own: the new value unfolds to the tree, and no node
of it stands in two places.
-/
namespace TypedClient

namespace Tree

/-- The shape of a tree; a container that is only referred to has none. -/
def shape? : Tree → Option Shape
  | .scalar s => some (.scalar s)
  | .list _ => some .list
  | .mapping entries => some (.mapping (Entries.keys entries))
  | .pair _ _ => some .pair
  | .set members => some (.set members)
  | .again _ _ => none

def parts : Tree → List Tree
  | .list items => items
  | .mapping entries => entries.map (·.2)
  | .pair first second => [first, second]
  | .scalar _ | .set _ | .again _ _ => []

/-- A tree is known by its shape and its parts. -/
theorem eq_of_shape? {t u : Tree} {s : Shape} (here : t.shape? = some s) (there : u.shape? = some s)
    (parts : t.parts = u.parts) : t = u := by
  rw [← there] at here
  cases t <;> cases u <;>
    simp only [shape?, Option.some.injEq, reduceCtorEq, Shape.scalar.injEq, Shape.mapping.injEq,
      Shape.set.injEq] at here
  case mapping.mapping es es' =>
    have whole : es = (Entries.keys es').zip (es'.map (·.2)) := List.zip_of_prod here parts
    rw [whole]
    exact congrArg _ (List.zip_of_prod rfl rfl).symm
  case again.again => cases there
  all_goals simp_all [Tree.parts]

end Tree

namespace Graph

/-- The tree is the value with every node written out at each of its places. -/
inductive Unfolds (g : Graph) : Value → Tree → Prop
  | intro {v : Value} {t : Tree} (shape : t.shape? = some (g.shape v))
    (length : (g.parts v).length = t.parts.length)
    (parts : ∀ e ∈ (g.parts v).zip t.parts, Unfolds g e.1 e.2) : Unfolds g v t

variable {g : Graph} {v : Value} {t : Tree}

theorem unfolds_iff : g.Unfolds v t ↔
    t.shape? = some (g.shape v) ∧ List.Forall₂ g.Unfolds (g.parts v) t.parts := by
  rw [List.forall₂_iff_zip]
  constructor
  · rintro ⟨shape, length, parts⟩
    exact ⟨shape, length, fun member => parts _ member⟩
  · rintro ⟨shape, length, parts⟩
    exact ⟨shape, length, fun e member => parts member⟩

theorem exists_mem_zip {α β : Type} {l : List α} {l' : List β} (length : l.length = l'.length)
    {x : α} (member : x ∈ l) : ∃ y, (x, y) ∈ l.zip l' := by
  rw [← List.map_fst_zip (Nat.le_of_eq length)] at member
  obtain ⟨⟨x', y⟩, zipped, rfl⟩ := List.mem_map.mp member
  exact ⟨y, zipped⟩

/-- In a value with a tree nothing contains itself. -/
theorem Unfolds.ends (unfolds : g.Unfolds v t) : Acc g.IsPart v := by
  induction unfolds with
  | intro shape length parts ih =>
    refine ⟨_, fun w part => ?_⟩
    obtain ⟨u, zipped⟩ := exists_mem_zip length part
    exact ih _ zipped

/-- Whatever stands in a value with a tree has a tree. -/
theorem Unfolds.exists_of_contains (unfolds : g.Unfolds v t) {w : Value} (inside : g.Contains v w) :
    ∃ u, g.Unfolds w u := by
  induction unfolds with
  | @intro v t shape length parts ih =>
    rcases inside.cases with rfl | ⟨part, member, inside⟩
    · exact ⟨t, .intro shape length parts⟩
    · obtain ⟨u, zipped⟩ := exists_mem_zip length member
      exact ih _ zipped inside

/-! ### The tree of a value -/

theorem unfoldWithin_node {id : NodeId} {n : Node} (node : g.nodes[id]? = some n)
    {path : List NodeId} (new : id ∉ path) :
    (g.unfoldWithin path (.node id)).shape? = some n.shape ∧
      (g.unfoldWithin path (.node id)).parts = n.parts.map (g.unfoldWithin (id :: path)) := by
  have view : g.view (.node id) = match n with
      | .list items => .list id items
      | .mapping entries => .mapping id entries
      | .pair first second => .pair id first second
      | .set members => .set id members := by
    simp only [Graph.view, node]
    cases n <;> rfl
  cases n <;> rw [unfoldWithin] <;> split <;> simp_all [Tree.shape?, Tree.parts, Node.shape,
    Node.parts, Entries.keys, Function.comp_def]

theorem Unfolds.unfoldWithin_eq (unfolds : g.Unfolds v t) {path : List NodeId}
    (outside : ∀ id ∈ path, ¬g.Contains v (.node id)) : g.unfoldWithin path v = t := by
  induction unfolds generalizing path with
  | @intro v t shape length parts ih =>
    cases v with
    | scalar s =>
      have form : g.unfoldWithin path (.scalar s) = .scalar s := by rw [unfoldWithin]; rfl
      rw [form]
      exact Tree.eq_of_shape? rfl shape (List.length_eq_zero_iff.mp length.symm).symm
    | node id =>
      have ends := (Unfolds.intro shape length parts).ends
      have new : id ∉ path := fun member => outside id member (.refl g _)
      cases node : g.nodes[id]? with
      | none =>
        rw [Graph.shape, node] at shape
        cases t <;> cases shape
      | some n =>
        have here : g.shape (.node id) = n.shape := by simp [Graph.shape, node]
        have inside : g.parts (.node id) = n.parts := by simp [Graph.parts, node]
        obtain ⟨shape', parts'⟩ := unfoldWithin_node node new
        refine Tree.eq_of_shape? shape' (shape.trans (by rw [here])) ?_
        rw [parts', ← inside, ← List.forall₂_eq_eq_eq, List.forall₂_map_left_iff,
          List.forall₂_iff_zip]
        refine ⟨length, fun {w u} zipped => ih (w, u) zipped fun id' member => ?_⟩
        have part : g.IsPart w (.node id) := (List.of_mem_zip zipped).1
        rcases List.mem_cons.mp member with rfl | member
        · -- a part that contained the node would lead back to it
          exact fun again => Acc.not_transGen_self ends (.tail' again part)
        · exact fun again => outside id' member (.trans (.of_part part) again)

/-- The tree that a value unfolds to is its only one. -/
theorem Unfolds.unfold_eq (unfolds : g.Unfolds v t) : g.unfold v = t :=
  unfolds.unfoldWithin_eq (by simp)

/-- A value has a tree if nothing in it contains itself and all its nodes are there. -/
theorem exists_unfolds (ends : Acc g.IsPart v)
    (present : ∀ w, g.Contains v w → g.shape w ≠ .missing) : ∃ t, g.Unfolds v t := by
  induction ends with
  | intro v _ ih =>
    have parts : ∀ w ∈ g.parts v, ∃ t, g.Unfolds w t := fun w part =>
      ih w part fun u inside => present u (.trans (.of_part part) inside)
    obtain ⟨ts, unfolds⟩ : ∃ ts, List.Forall₂ g.Unfolds (g.parts v) ts := by
      generalize g.parts v = ws at parts
      induction ws with
      | nil => exact ⟨[], .nil⟩
      | cons w ws ih =>
        obtain ⟨t, first⟩ := parts w List.mem_cons_self
        obtain ⟨ts, rest⟩ := ih fun u member => parts u (List.mem_cons_of_mem _ member)
        exact ⟨t :: ts, .cons first rest⟩
    suffices tree : ∃ t : Tree, t.shape? = some (g.shape v) ∧ t.parts = ts by
      obtain ⟨t, shape, rfl⟩ := tree
      exact ⟨t, unfolds_iff.mpr ⟨shape, unfolds⟩⟩
    have here := present v (.refl g v)
    have length := unfolds.length_eq
    rcases view_cases g v with ⟨s, rfl⟩ | ⟨-, missing, -⟩ | ⟨id, items, -, shape, -⟩ |
      ⟨id, es, -, shape, inside⟩ | ⟨id, first, second, -, shape, inside⟩ |
      ⟨id, members, -, shape, inside⟩
    · exact ⟨.scalar s, rfl, (List.length_eq_zero_iff.mp length.symm).symm⟩
    · exact absurd missing here
    · exact ⟨.list ts, by rw [shape]; rfl, rfl⟩
    · refine ⟨.mapping ((Entries.keys es).zip ts), ?_, ?_⟩
      all_goals
        rw [inside, List.length_map] at length
      · rw [shape, Tree.shape?, Entries.keys, List.map_fst_zip]
        simp [Entries.keys, length]
      · rw [Tree.parts, List.map_snd_zip]
        simp [Entries.keys, length]
    · rw [inside] at length
      obtain ⟨a, b, rfl⟩ := List.length_eq_two.mp length.symm
      exact ⟨.pair a b, by rw [shape]; rfl, rfl⟩
    · rw [inside] at length
      exact ⟨.set members, by rw [shape]; rfl, (List.length_eq_zero_iff.mp length.symm).symm⟩

/-! ### Trees in graphs -/

/-- Values of a graph that were written into it for several trees: nothing else was changed, all
nodes in the values are new, and none of them stands in two places. -/
structure Writes (g g' : Graph) (vs : List Value) (ts : List Tree) : Prop where
  more : ∃ ns, g'.nodes = g.nodes ++ ns
  new : ∀ (index : Nat) place (id : Nat),
    (vs[index]?.bind fun v => g'.at? v place) = some (.node id) →
      g.nodes.size ≤ id ∧ id < g'.nodes.size
  once : ∀ (index : Nat) place (index' : Nat) place' (id : Nat),
    (vs[index]?.bind fun v => g'.at? v place) = some (.node id) →
    (vs[index']?.bind fun v => g'.at? v place') = some (.node id) → index = index' ∧ place = place'
  unfolds : ∀ (h : Graph) ws, List.Forall₂ h.Unfolds ws ts → List.Forall₂ g'.Unfolds vs ts

section More

variable {g' : Graph} {ns : Array Node} (more : g'.nodes = g.nodes ++ ns)

include more

theorem node_of_more {id : NodeId} (bound : id < g.nodes.size) : g'.nodes[id]? = g.nodes[id]? := by
  rw [more, Array.getElem?_append_left bound]

theorem Unfolds.of_more (unfolds : g.Unfolds v t) : g'.Unfolds v t := by
  induction unfolds with
  | @intro v t shape length parts ih =>
    cases v with
    | scalar s => exact .intro shape length ih
    | node id =>
      have bound : id < g.nodes.size := by
        by_contra missing
        rw [Graph.shape, Array.getElem?_eq_none (Nat.le_of_not_lt missing)] at shape
        cases t <;> cases shape
      have same := node_of_more more bound
      exact .intro (by rwa [Graph.shape, same]) (by rwa [Graph.parts, same])
        (by rwa [Graph.parts, same])

/-- Nodes that are added at the end change nothing about a value without them. -/
theorem at?_of_more (inside : ∀ place id, g.at? v place = some (.node id) → id < g.nodes.size)
    (place : List Nat) : g'.at? v place = g.at? v place := by
  induction place generalizing v with
  | nil => rfl
  | cons index place ih =>
    have parts : g'.parts v = g.parts v := by
      cases v with
      | scalar s => rfl
      | node id => rw [Graph.parts, Graph.parts, node_of_more more (inside [] id rfl)]
    rw [at?, at?, parts]
    cases part : (g.parts v)[index]? with
    | none => rfl
    | some w =>
      refine ih fun place' id here => inside (index :: place') id ?_
      rw [at?, part]
      exact here

end More

namespace Writes

theorem nil (g : Graph) : Writes g g [] [] where
  more := ⟨#[], by simp⟩
  new := by simp
  once := by simp
  unfolds := by
    intro h ws unfolds
    cases unfolds
    exact .nil

/-- A scalar needs no node. -/
theorem scalar (g : Graph) (s : Scalar) (only : ∀ (h : Graph) w, h.Unfolds w t → t = .scalar s) :
    Writes g g [.scalar s] [t] := by
  have none : ∀ (index : Nat) place id,
      ([Value.scalar s][index]?.bind fun v => g.at? v place) ≠ some (.node id) := by
    rintro (_ | index) (_ | ⟨step, place⟩) id here <;> simp [at?, Graph.parts] at here
  refine ⟨⟨#[], by simp⟩, fun index place id here => absurd here (none index place id),
    fun index place index' place' id here => absurd here (none index place id), ?_⟩
  intro h ws unfolds
  obtain ⟨w, ws, head, tail, rfl⟩ := List.forall₂_cons_right_iff.mp unfolds
  obtain rfl := only h w head
  exact .cons (unfolds_iff.mpr ⟨rfl, .nil⟩) .nil

variable {g' g'' : Graph} {vs : List Value} {ts : List Tree}

theorem cons (first : Writes g g' [v] [t]) (rest : Writes g' g'' vs ts) :
    Writes g g'' (v :: vs) (t :: ts) := by
  obtain ⟨ns, more⟩ := first.more
  obtain ⟨ns', more'⟩ := rest.more
  have bound : ∀ place (id : Nat), g'.at? v place = some (.node id) →
      g.nodes.size ≤ id ∧ id < g'.nodes.size := fun place id here => first.new 0 place id here
  have before := at?_of_more more' fun place id here => (bound place id here).2
  have size : g.nodes.size ≤ g'.nodes.size ∧ g'.nodes.size ≤ g''.nodes.size := by
    simp [more', more]
  refine ⟨⟨ns ++ ns', by rw [more', more, Array.append_assoc]⟩, ?_, ?_, ?_⟩
  · rintro (_ | index) place id here
    · have range := bound place id (by rw [← before]; exact here)
      omega
    · have range := rest.new index place id (by simpa using here)
      omega
  · rintro (_ | index) place (_ | index') place' id here there
    · have here : g'.at? v place = some (.node id) := by rw [← before]; exact here
      have there : g'.at? v place' = some (.node id) := by rw [← before]; exact there
      exact ⟨rfl, (first.once 0 place 0 place' id here there).2⟩
    · have range := bound place id (by rw [← before]; exact here)
      have range' := rest.new index' place' id (by simpa using there)
      omega
    · have range := bound place' id (by rw [← before]; exact there)
      have range' := rest.new index place id (by simpa using here)
      omega
    · have same := rest.once index place index' place' id (by simpa using here) (by simpa using there)
      exact ⟨by rw [same.1], same.2⟩
  · intro h ws unfolds
    obtain ⟨w, ws, head, tail, rfl⟩ := List.forall₂_cons_right_iff.mp unfolds
    have unfolds := first.unfolds h [w] (.cons head .nil)
    cases unfolds with
    | cons here _ => exact .cons (here.of_more more') (rest.unfolds h ws tail)

/-- A container of its own around values that were written. -/
theorem add {n : Node} (parts : Writes g g' n.parts t.parts) (shape : t.shape? = some n.shape) :
    Writes g (g'.add n).1 [(g'.add n).2] [t] := by
  obtain ⟨ns, more⟩ := parts.more
  have more' : (g'.add n).1.nodes = g'.nodes ++ #[n] := by simp [Graph.add]
  have size : g.nodes.size ≤ g'.nodes.size := by simp [more]
  have node : (g'.add n).1.nodes[g'.nodes.size]? = some n := by simp [Graph.add]
  -- below the new node nothing has changed
  have before : ∀ index place,
      (g'.add n).1.at? (g'.add n).2 (index :: place) = n.parts[index]?.bind fun v => g'.at? v place := by
    intro index place
    have inside : (g'.add n).1.parts (g'.add n).2 = n.parts := by
      simp only [Graph.add, Graph.parts]
      simp
    rw [at?, inside]
    cases part : n.parts[index]? with
    | none => rfl
    | some v =>
      refine at?_of_more more' (fun place' id here => (parts.new index place' id ?_).2) place
      rw [part]
      exact here
  have new : ∀ place (id : Nat), (g'.add n).1.at? (g'.add n).2 place = some (.node id) →
      g.nodes.size ≤ id ∧ id < (g'.add n).1.nodes.size ∧ (id = g'.nodes.size ↔ place = []) := by
    intro place id here
    have grown : (g'.add n).1.nodes.size = g'.nodes.size + 1 := by simp [more']
    cases place with
    | nil =>
      cases here
      exact ⟨size, by omega, by simp⟩
    | cons index place =>
      have range := parts.new index place id ((before index place).symm.trans here)
      refine ⟨range.1, by omega, fun same => by omega, by simp⟩
  refine ⟨⟨ns ++ #[n], by rw [more', more, Array.append_assoc]⟩, ?_, ?_, ?_⟩
  · rintro (_ | index) place id here
    · exact ⟨(new place id here).1, (new place id here).2.1⟩
    · simp at here
  · rintro (_ | index) place (_ | index') place' id here there
    · have top := (new place id here).2.2.symm.trans (new place' id there).2.2
      cases place with
      | nil => exact ⟨rfl, (top.mp rfl).symm⟩
      | cons index place =>
        cases place' with
        | nil => cases top.mpr rfl
        | cons index' place' =>
          have same := parts.once index place index' place' id
            ((before index place).symm.trans here) ((before index' place').symm.trans there)
          exact ⟨rfl, by rw [same.1, same.2]⟩
    all_goals simp at here there
  · intro h ws unfolds
    obtain ⟨w, ws, head, tail, rfl⟩ := List.forall₂_cons_right_iff.mp unfolds
    cases tail
    have inside := parts.unfolds h _ (unfolds_iff.mp head).2
    refine .cons (unfolds_iff.mpr ⟨?_, ?_⟩) .nil
    · rw [shape]
      simp [Graph.add, Graph.shape]
    · have inner : (g'.add n).1.parts (g'.add n).2 = n.parts := by
        simp [Graph.add, Graph.parts]
      rw [inner]
      exact inside.imp fun v t unfolds => unfolds.of_more more'

end Writes

mutual

theorem writes_addTree (g : Graph) : (t : Tree) → Writes g (g.addTree t).1 [(g.addTree t).2] [t]
  | .scalar s => .scalar g s fun _ _ _ => rfl
  | .again levels container => .scalar g .null fun h w unfolds => by
    cases (unfolds_iff.mp unfolds).1
  | .list items => (writes_addTrees g items).add rfl
  | .mapping entries => (writes_addTreeEntries g entries).1.add (by
      rw [Tree.shape?, Node.shape, (writes_addTreeEntries g entries).2])
  | .pair first second => by
    have both := Writes.cons (writes_addTree g first)
      (Writes.cons (writes_addTree (g.addTree first).1 second) (.nil _))
    exact both.add rfl
  | .set members => (Writes.nil g).add rfl

theorem writes_addTrees (g : Graph) : (ts : List Tree) →
    Writes g (g.addTrees ts).1 (g.addTrees ts).2 ts
  | [] => .nil g
  | t :: ts => .cons (writes_addTree g t) (writes_addTrees (g.addTree t).1 ts)

theorem writes_addTreeEntries (g : Graph) : (es : List (Scalar × Tree)) →
    Writes g (g.addTreeEntries es).1 ((g.addTreeEntries es).2.map (·.2)) (es.map (·.2)) ∧
      Entries.keys (g.addTreeEntries es).2 = Entries.keys es
  | [] => ⟨.nil g, rfl⟩
  | (k, t) :: es => by
    obtain ⟨rest, keys⟩ := writes_addTreeEntries (g.addTree t).1 es
    exact ⟨.cons (writes_addTree g t) rest, congrArg (k :: ·) keys⟩

end

/-- A graph that is made from a tree shares nothing. -/
theorem unshared_ofTree (t : Tree) : (ofTree t).1.Unshared (ofTree t).2 :=
  fun place place' id here there =>
    ((writes_addTree empty t).once 0 place 0 place' id here there).2

/-- The tree of a value, made into a graph, unfolds to itself. -/
theorem unfolds_ofTree (unfolds : g.Unfolds v t) : (ofTree t).1.Unfolds (ofTree t).2 t := by
  have written := (writes_addTree empty t).unfolds g [v] (.cons unfolds .nil)
  cases written with
  | cons here _ => exact here

end Graph

end TypedClient
