import TypedClient.Document.Json
import TypedClient.Proofs.Document.Address

/-!
# JSON documents

A JSON document is made of lists, of mappings whose keys are texts of which none is there twice, and
of scalars of a few kinds; no node of it stands in two places. Whatever is read from a JSON text is
such a document.
-/
namespace TypedClient

namespace Scalar

def isText : Scalar → Bool
  | .text _ => true
  | _ => false

theorem isText_iff {s : Scalar} : s.isText = true ↔ ∃ name, s = .text name := by
  cases s <;> simp [isText]

/-- The scalars that JSON has. -/
def isJson : Scalar → Bool
  | .null | .bool _ | .int _ | .float _ | .text _ => true
  | .date _ | .timestamp _ | .bytes _ => false

end Scalar

namespace Entries

variable {α : Type}

/-- The keys are texts, and each of them is there once. -/
def areNamed (es : List (Scalar × α)) : Bool := (keys es).all Scalar.isText && decide (keys es).Nodup

theorem areNamed_iff {es : List (Scalar × α)} :
    areNamed es = true ↔ (∀ key ∈ keys es, ∃ name, key = .text name) ∧ (keys es).Nodup := by
  simp only [areNamed, Bool.and_eq_true, List.all_eq_true, Scalar.isText_iff, decide_eq_true_eq]

theorem areNamed_put {es : List (Scalar × α)} (named : areNamed es = true) (name : String) (a : α) :
    areNamed (put (.text name) a es) = true := by
  rw [areNamed_iff] at named ⊢
  rw [keys_put]
  split
  · exact named
  · next new =>
    refine ⟨fun key member => ?_, List.nodup_append.mpr ⟨named.2, List.pairwise_singleton _ _, ?_⟩⟩
    · rcases List.mem_append.mp member with member | member
      · exact named.1 key member
      · exact ⟨name, List.mem_singleton.mp member⟩
    · rintro key member _ last rfl
      obtain ⟨e, inside, rfl⟩ := List.mem_map.mp member
      refine new (List.any_eq_true.mpr ⟨e, inside, ?_⟩)
      rw [List.mem_singleton.mp last, Scalar.same_text_iff]

theorem mem_put {es : List (Scalar × α)} {key : Scalar} {a b : α}
    (member : b ∈ (put key a es).map (·.2)) : b = a ∨ b ∈ es.map (·.2) := by
  induction es with
  | nil => exact .inl (List.mem_singleton.mp member)
  | cons e es ih =>
    rw [put] at member
    split at member
    · rcases List.mem_cons.mp member with same | member
      · exact .inl same
      · exact .inr (List.mem_cons_of_mem _ member)
    · rcases List.mem_cons.mp member with same | member
      · exact .inr (same ▸ List.mem_cons_self)
      · exact (ih member).imp_right (List.mem_cons_of_mem _)

/-- Entries under texts, written one after the other, make up a mapping of which each value is one
of theirs. -/
theorem areNamed_ofList {es : List (Scalar × α)} (texts : ∀ e ∈ es, ∃ name, e.1 = .text name) :
    areNamed (ofList es) = true ∧ ∀ b ∈ (ofList es).map (·.2), b ∈ es.map (·.2) := by
  suffices run : ∀ acc : List (Scalar × α), areNamed acc = true →
      areNamed (es.foldl (fun acc e => put e.1 e.2 acc) acc) = true ∧
        ∀ b ∈ (es.foldl (fun acc e => put e.1 e.2 acc) acc).map (·.2),
          b ∈ acc.map (·.2) ∨ b ∈ es.map (·.2) by
    obtain ⟨named, values⟩ := run [] rfl
    exact ⟨named, fun b member => (values b member).resolve_left nofun⟩
  induction es with
  | nil => exact fun acc named => ⟨named, fun b member => .inl member⟩
  | cons e es ih =>
    intro acc named
    obtain ⟨name, key⟩ := texts e List.mem_cons_self
    obtain ⟨rest, values⟩ := ih (fun e' member => texts e' (List.mem_cons_of_mem _ member))
      (put e.1 e.2 acc) (key ▸ areNamed_put named name e.2)
    refine ⟨rest, fun b member => ?_⟩
    rcases values b member with before | member
    · rcases mem_put before with same | before
      · exact .inr (same ▸ List.mem_cons_self)
      · exact .inl before
    · exact .inr (List.mem_cons_of_mem _ member)

end Entries

namespace Tree

mutual

/-- The tree is one that JSON has. -/
def isJson : Tree → Bool
  | .scalar s => s.isJson
  | .list items => areJson items
  | .mapping entries => Entries.areNamed entries && entriesAreJson entries
  | .pair _ _ | .set _ | .again _ _ => false

def areJson : List Tree → Bool
  | [] => true
  | t :: ts => isJson t && areJson ts

def entriesAreJson : List (Scalar × Tree) → Bool
  | [] => true
  | (_, t) :: es => isJson t && entriesAreJson es

end

theorem areJson_iff {ts : List Tree} : areJson ts = true ↔ ∀ t ∈ ts, t.isJson = true := by
  induction ts with
  | nil => simp [areJson]
  | cons t ts ih => simp [areJson, ih]

theorem entriesAreJson_iff {es : List (Scalar × Tree)} :
    entriesAreJson es = true ↔ ∀ t ∈ es.map (·.2), t.isJson = true := by
  induction es with
  | nil => simp [entriesAreJson]
  | cons e es ih => simp [entriesAreJson, ih]

theorem isJson_of_mem_parts {t u : Tree} (json : t.isJson = true) (member : u ∈ t.parts) :
    u.isJson = true := by
  cases t with
  | list items => exact areJson_iff.mp json u member
  | mapping entries =>
    rw [isJson, Bool.and_eq_true] at json
    exact entriesAreJson_iff.mp json.2 u member
  | scalar s => cases member
  | pair first second => cases json
  | set members => cases json
  | again levels container => cases json

end Tree

namespace Graph

/-- The value is a JSON document. -/
structure IsJson (g : Graph) (v : Value) : Prop where
  unshared : g.Unshared v
  tree : ∃ t, g.Unfolds v t ∧ t.isJson = true

variable {g : Graph} {v w : Value}

theorem Unfolds.exists_json {t : Tree} (unfolds : g.Unfolds v t) (json : t.isJson = true)
    (inside : g.Contains v w) : ∃ u, g.Unfolds w u ∧ u.isJson = true := by
  induction unfolds with
  | @intro v t shape length parts ih =>
    rcases inside.cases with rfl | ⟨part, member, inside⟩
    · exact ⟨t, .intro shape length parts, json⟩
    · obtain ⟨u, zipped⟩ := exists_mem_zip length member
      exact ih _ zipped (Tree.isJson_of_mem_parts json (List.of_mem_zip zipped).2) inside

namespace IsJson

variable (json : g.IsJson v)

include json

theorem whole : g.Whole v := by
  obtain ⟨t, unfolds, -⟩ := json.tree
  intro id inside
  obtain ⟨u, unfolds⟩ := unfolds.exists_of_contains inside
  by_contra missing
  have shape := (unfolds_iff.mp unfolds).1
  rw [Graph.shape, Array.getElem?_eq_none (Nat.le_of_not_lt missing)] at shape
  cases u <;> cases shape

/-- The entries of a mapping in a JSON document have names, and no name twice. -/
theorem areNamed_fields (inside : g.Contains v w) : Entries.areNamed (g.fields w) = true := by
  obtain ⟨t, unfolds, json⟩ := json.tree
  obtain ⟨u, unfolds, json⟩ := unfolds.exists_json json inside
  have shape := (unfolds_iff.mp unfolds).1
  cases entries : g.entries? w with
  | none =>
    rw [fields_of_other entries]
    rfl
  | some es =>
    rw [(shape_parts_of_entries? entries).1] at shape
    cases u with
    | mapping es' =>
      have same : Entries.keys es' = Entries.keys es := Shape.mapping.inj (Option.some.inj shape)
      rw [Tree.isJson, Bool.and_eq_true, Entries.areNamed, same] at json
      rw [fields_of_entries? entries]
      exact json.1
    | _ => cases shape

end IsJson

/-! ### JSON trees in graphs -/

theorem Unfolds.of_add {n : Node} {t : Tree} (shape : t.shape? = some n.shape)
    (parts : List.Forall₂ g.Unfolds n.parts t.parts) : (g.add n).1.Unfolds (g.add n).2 t := by
  have node : (g.add n).1.nodes[g.nodes.size]? = some n := by simp [Graph.add]
  have more : (g.add n).1.nodes = g.nodes ++ #[n] := by simp [Graph.add]
  refine unfolds_iff.mpr ⟨?_, ?_⟩
  · rw [shape]
    simp [Graph.add, Graph.shape]
  · have inside : (g.add n).1.parts (g.add n).2 = n.parts := by simp [Graph.add, Graph.parts]
    rw [inside]
    exact parts.imp fun _ _ unfolds => unfolds.of_more more

mutual

/-- A JSON tree that is added to a graph is the tree of the new value. -/
theorem unfolds_addTree (g : Graph) : (t : Tree) → t.isJson = true →
    (g.addTree t).1.Unfolds (g.addTree t).2 t
  | .scalar s, _ => unfolds_iff.mpr ⟨rfl, .nil⟩
  | .list items, json => .of_add rfl (unfolds_addTrees g items json)
  | .mapping entries, json => by
    rw [Tree.isJson, Bool.and_eq_true] at json
    refine .of_add ?_ (unfolds_addTreeEntries g entries json.2)
    rw [Tree.shape?, Node.shape, (writes_addTreeEntries g entries).2]

theorem unfolds_addTrees (g : Graph) : (ts : List Tree) → Tree.areJson ts = true →
    List.Forall₂ (g.addTrees ts).1.Unfolds (g.addTrees ts).2 ts
  | [], _ => .nil
  | t :: ts, json => by
    rw [Tree.areJson, Bool.and_eq_true] at json
    obtain ⟨ns, more⟩ := (writes_addTrees (g.addTree t).1 ts).more
    exact .cons ((unfolds_addTree g t json.1).of_more more)
      (unfolds_addTrees (g.addTree t).1 ts json.2)

theorem unfolds_addTreeEntries (g : Graph) : (es : List (Scalar × Tree)) →
    Tree.entriesAreJson es = true → List.Forall₂ (g.addTreeEntries es).1.Unfolds
      ((g.addTreeEntries es).2.map (·.2)) (es.map (·.2))
  | [], _ => .nil
  | (k, t) :: es, json => by
    rw [Tree.entriesAreJson, Bool.and_eq_true] at json
    obtain ⟨ns, more⟩ := (writes_addTreeEntries (g.addTree t).1 es).1.more
    exact .cons ((unfolds_addTree g t json.1).of_more more)
      (unfolds_addTreeEntries (g.addTree t).1 es json.2)

end

theorem isJson_ofTree {t : Tree} (json : t.isJson = true) : (ofTree t).1.IsJson (ofTree t).2 :=
  ⟨unshared_ofTree t, t, unfolds_addTree empty t json, json⟩

end Graph

/-! ### Reading -/

namespace Json

theorem isJson_numberOf (negative : Bool) (whole fraction : List Char) (exponent : Option Int) :
    (numberOf negative whole fraction exponent).isJson = true := by
  unfold numberOf
  split <;> rfl

theorem isJson_of_readNumber {start text rest : List Char} {negative : Bool} {s : Scalar}
    (success : readNumber start negative text = .ok (s, rest)) : s.isJson = true := by
  unfold readNumber at success
  split at success
  · cases success
  · split at success
    · cases success
    · simp only at success
      split at success <;> split at success
      all_goals cases success
      all_goals exact isJson_numberOf ..

theorem isJson_of_readScalar {text rest : List Char} {s : Scalar}
    (success : readScalar text = .ok (s, rest)) : s.isJson = true := by
  unfold readScalar at success
  split at success
  · next r found =>
    cases success
    obtain ⟨w, member, found⟩ := List.exists_of_findSome?_eq_some found
    obtain ⟨rest', -, same⟩ := Option.map_eq_some_iff.mp found
    cases same
    have all : ∀ w ∈ words, w.2.isJson = true := by decide
    exact all w member
  · split at success
    · exact isJson_of_readNumber success
    · exact isJson_of_readNumber success

/-- What is read with this budget is JSON, at any depth. -/
structure ReadsJson (budget : Nat) : Prop where
  value : ∀ depth text t rest, readValue depth budget text = .ok (t, rest) → t.isJson = true
  items : ∀ depth text ts rest, readItems depth budget text = .ok (ts, rest) →
    Tree.areJson ts = true
  members : ∀ depth text es rest, readMembers depth budget text = .ok (es, rest) →
    (∀ e ∈ es, ∃ name, e.1 = .text name) ∧ Tree.entriesAreJson es = true

namespace ReadsJson

variable {budget depth : Nat} (reads : ReadsJson budget) {text rest : List Char}

include reads

theorem of_readValue {t : Tree} (success : readValue depth (budget + 1) text = .ok (t, rest)) :
    t.isJson = true := by
  unfold readValue at success
  split at success
  · obtain ⟨read, -, success⟩ := Except.bind_eq_ok success
    cases success
    rfl
  · split at success
    · cases success
    · split at success
      · cases success
        rfl
      · obtain ⟨read, items, success⟩ := Except.bind_eq_ok success
        cases success
        exact reads.items _ _ _ _ items
  · split at success
    · cases success
    · split at success
      · cases success
        rfl
      · obtain ⟨read, members, success⟩ := Except.bind_eq_ok success
        cases success
        obtain ⟨texts, json⟩ := reads.members _ _ _ _ members
        obtain ⟨named, values⟩ := Entries.areNamed_ofList texts
        rw [Tree.isJson, named, Bool.true_and, Tree.entriesAreJson_iff]
        exact fun u member => Tree.entriesAreJson_iff.mp json u (values u member)
  · obtain ⟨read, scalar, success⟩ := Except.bind_eq_ok success
    cases success
    exact isJson_of_readScalar scalar

theorem of_readItems {ts : List Tree} (success : readItems depth (budget + 1) text = .ok (ts, rest)) :
    Tree.areJson ts = true := by
  unfold readItems at success
  obtain ⟨item, value, success⟩ := Except.bind_eq_ok success
  have first := reads.value _ _ _ _ value
  simp only at success
  split at success
  · cases success
    rw [Tree.areJson, first]
    rfl
  · obtain ⟨items, following, success⟩ := Except.bind_eq_ok success
    cases success
    rw [Tree.areJson, first, reads.items _ _ _ _ following]
    rfl
  · cases success

theorem of_readMembers {es : List (Scalar × Tree)}
    (success : readMembers depth (budget + 1) text = .ok (es, rest)) :
    (∀ e ∈ es, ∃ name, e.1 = .text name) ∧ Tree.entriesAreJson es = true := by
  unfold readMembers at success
  split at success
  · obtain ⟨name, -, success⟩ := Except.bind_eq_ok success
    simp only at success
    split at success
    · obtain ⟨member, value, success⟩ := Except.bind_eq_ok success
      have first := reads.value _ _ _ _ value
      split at success
      · cases success
        refine ⟨List.forall_mem_singleton.mpr ⟨_, rfl⟩, ?_⟩
        rw [Tree.entriesAreJson, first]
        rfl
      · obtain ⟨members, following, success⟩ := Except.bind_eq_ok success
        cases success
        obtain ⟨texts, json⟩ := reads.members _ _ _ _ following
        refine ⟨List.forall_mem_cons.mpr ⟨⟨_, rfl⟩, texts⟩, ?_⟩
        rw [Tree.entriesAreJson, first, json]
        rfl
      · cases success
    · cases success
  · cases success

end ReadsJson

/-- Each reader calls the others with less budget. -/
theorem readsJson (budget : Nat) : ReadsJson budget := by
  induction budget with
  | zero => exact ⟨nofun, nofun, nofun⟩
  | succ budget reads =>
    exact ⟨fun _ _ _ _ => reads.of_readValue, fun _ _ _ _ => reads.of_readItems,
      fun _ _ _ _ => reads.of_readMembers⟩

/-- Whatever is read from a JSON text is a JSON document. -/
theorem isJson_of_read {text : String} {t : Tree} (success : read text = .ok t) :
    (Graph.ofTree t).1.IsJson (Graph.ofTree t).2 := by
  refine Graph.isJson_ofTree ?_
  unfold read Except.mapError at success
  split at success
  · cases success
  · next t' document =>
    cases success
    unfold readDocument at document
    split at document
    · cases document
    · obtain ⟨read, value, document⟩ := Except.bind_eq_ok document
      simp only at document
      split at document <;> cases document
      exact (readsJson _).value _ _ _ _ value

end Json

end TypedClient
