import TypedClient.Proofs.Document.Unfolding
import TypedClient.Proofs.Failure.Success

/-!
# Copies of documents

A value of one graph is a copy of a value of another if the two have one shape and their parts, one
after the other, are copies again. How the nodes are shared does not count: a node may have several
copies and several nodes may have one. All that is asked of a value without regard to what it is the
same as comes out the same for a copy; the text of a value does if the value has a tree.
-/
namespace TypedClient

theorem forall₂_trans {α β γ : Type} {R : α → β → Prop} {S : β → γ → Prop} {T : α → γ → Prop}
    (compose : ∀ a b c, R a b → S b c → T a c) {l : List α} {m : List β} {n : List γ}
    (first : List.Forall₂ R l m) (second : List.Forall₂ S m n) : List.Forall₂ T l n := by
  induction first generalizing n with
  | nil =>
    cases second
    exact .nil
  | cons here _ ih =>
    cases second with
    | cons there second => exact .cons (compose _ _ _ here there) (ih second)

section Forall₂

variable {α β γ : Type} {R S : α → β → Prop} {l : List α} {m : List β}

theorem forall₂_imp_mem (related : List.Forall₂ R l m)
    (step : ∀ x ∈ l, ∀ y ∈ m, R x y → S x y) : List.Forall₂ S l m := by
  induction related with
  | nil => exact .nil
  | cons here _ ih =>
    refine .cons (step _ List.mem_cons_self _ List.mem_cons_self here) (ih fun x mx y my => ?_)
    exact step x (List.mem_cons_of_mem _ mx) y (List.mem_cons_of_mem _ my)

theorem exists_forall₂ (each : ∀ x ∈ l, ∃ y, R x y) : ∃ m, List.Forall₂ R l m := by
  induction l with
  | nil => exact ⟨[], .nil⟩
  | cons x l ih =>
    obtain ⟨y, here⟩ := each x List.mem_cons_self
    obtain ⟨m, rest⟩ := ih fun x' member => each x' (List.mem_cons_of_mem _ member)
    exact ⟨y :: m, .cons here rest⟩

theorem exists_right_of_forall₂ (related : List.Forall₂ R l m) {x : α} (member : x ∈ l) :
    ∃ y ∈ m, R x y := by
  induction related with
  | nil => cases member
  | cons here _ ih =>
    rcases List.mem_cons.mp member with rfl | member
    · exact ⟨_, List.mem_cons_self, here⟩
    · obtain ⟨y, member, there⟩ := ih member
      exact ⟨y, List.mem_cons_of_mem _ member, there⟩

theorem exists_getElem?_of_forall₂ (related : List.Forall₂ R l m) {i : Nat} {x : α}
    (here : l[i]? = some x) : ∃ y, m[i]? = some y ∧ R x y := by
  induction related generalizing i with
  | nil => cases here
  | cons first _ ih =>
    cases i with
    | zero =>
      cases here
      exact ⟨_, rfl, first⟩
    | succ i => exact ih here

theorem forall₂_zipIdx (related : List.Forall₂ R l m) (k : Nat) :
    List.Forall₂ (fun a b => R a.1 b.1 ∧ a.2 = b.2) (l.zipIdx k) (m.zipIdx k) := by
  induction related generalizing k with
  | nil => exact .nil
  | cons here _ ih => exact .cons ⟨here, rfl⟩ (ih (k + 1))

/-- Steps that agree one by one agree as a whole. -/
theorem mapM_eq_of_forall₂ {f : α → Result γ} {h : β → Result γ}
    (agree : List.Forall₂ (fun x y => f x = h y) l m) : l.mapM f = m.mapM h := by
  induction agree with
  | nil => rfl
  | cons here _ ih => rw [List.mapM_cons, List.mapM_cons, here, ih]

/-- Where a step has succeeded for each element of a list, its results go with the elements. -/
theorem forall₂_of_mapM {f : α → Result β} (success : l.mapM f = .ok m) :
    List.Forall₂ (fun x y => f x = .ok y) l m := by
  induction l generalizing m with
  | nil =>
    cases success
    exact .nil
  | cons x l ih =>
    rw [List.mapM_cons] at success
    obtain ⟨y, head, success⟩ := Except.bind_eq_ok success
    obtain ⟨ys, tail, success⟩ := Except.bind_eq_ok success
    cases success
    exact .cons head (ih tail)

end Forall₂

namespace Graph

/-- A relation between the values of two graphs that holds of copies only. -/
structure IsCopy (g' g : Graph) (R : Value → Value → Prop) : Prop where
  scalar : ∀ s, R (.scalar s) (.scalar s)
  shape : ∀ v' v, R v' v → g'.shape v' = g.shape v
  parts : ∀ v' v, R v' v → List.Forall₂ R (g'.parts v') (g.parts v)

/-- The first value is a copy of the second. -/
def Copies (g' : Graph) (v' : Value) (g : Graph) (v : Value) : Prop :=
  ∃ R, IsCopy g' g R ∧ R v' v

/-- Values that unfold to one tree are copies of each other. -/
theorem isCopy_of_unfolds (g' g : Graph) :
    IsCopy g' g fun v' v => ∃ t, g'.Unfolds v' t ∧ g.Unfolds v t where
  scalar s := ⟨.scalar s, unfolds_iff.mpr ⟨rfl, .nil⟩, unfolds_iff.mpr ⟨rfl, .nil⟩⟩
  shape := by
    rintro v' v ⟨t, unfolds', unfolds⟩
    have same := (unfolds_iff.mp unfolds').1.symm.trans (unfolds_iff.mp unfolds).1
    exact Option.some.inj same
  parts := by
    rintro v' v ⟨t, unfolds', unfolds⟩
    have right : List.Forall₂ (fun u w => g.Unfolds w u) t.parts (g.parts v) :=
      .flip (unfolds_iff.mp unfolds).2
    exact forall₂_trans (fun _ u _ here there => ⟨u, here, there⟩) (unfolds_iff.mp unfolds').2 right

/-- The tree of a value is a copy of it in which nothing is shared. -/
theorem Unfolds.copies_ofTree {g : Graph} {v : Value} {t : Tree} (unfolds : g.Unfolds v t) :
    Copies (ofTree t).1 (ofTree t).2 g v :=
  ⟨_, isCopy_of_unfolds _ g, t, unfolds_ofTree unfolds, unfolds⟩

/-- A value of which no node has changed is a copy of what it was. -/
theorem isCopy_of_nodes {g' g : Graph} {v : Value}
    (same : ∀ id : Nat, g.Contains v (.node id) → g'.nodes[id]? = g.nodes[id]?) :
    IsCopy g' g fun v' w => v' = w ∧ ((∃ s, w = .scalar s) ∨ g.Contains v w) where
  scalar s := ⟨rfl, .inl ⟨s, rfl⟩⟩
  shape := by
    rintro w _ ⟨rfl, ⟨s, rfl⟩ | contains⟩
    · rfl
    · cases w with
      | scalar s => rfl
      | node id => rw [Graph.shape, Graph.shape, same id contains]
  parts := by
    rintro w _ ⟨rfl, ⟨s, rfl⟩ | contains⟩
    · exact .nil
    · have parts : g'.parts w = g.parts w := by
        cases w with
        | scalar s => rfl
        | node id => rw [Graph.parts, Graph.parts, same id contains]
      rw [parts]
      exact List.forall₂_same.mpr fun u part => ⟨rfl, .inr (contains.trans (.of_part part))⟩

end Graph

namespace Entries

/-- Entries with the same keys and related values. -/
abbrev Alike (R : Value → Value → Prop) (es' es : Entries) : Prop :=
  List.Forall₂ (fun e' e => e'.1 = e.1 ∧ R e'.2 e.2) es' es

variable {R : Value → Value → Prop} {es' es : Entries}

theorem alike_of_parts (same : keys es' = keys es)
    (values : List.Forall₂ R (es'.map (·.2)) (es.map (·.2))) : Alike R es' es := by
  induction es' generalizing es with
  | nil =>
    cases es with
    | nil => exact .nil
    | cons e es => cases same
  | cons e' es' ih =>
    cases es with
    | nil => cases same
    | cons e es =>
      obtain ⟨key, same⟩ := List.cons.inj same
      cases values with
      | cons value values => exact .cons ⟨key, value⟩ (ih same values)

end Entries

/-- Views that show the same, with parts that are related. -/
inductive View.Alike (R : Value → Value → Prop) : View → View → Prop
  | scalar (s : Scalar) : Alike R (.scalar s) (.scalar s)
  | list (id' id : NodeId) {items' items : List Value} (parts : List.Forall₂ R items' items) :
    Alike R (.list id' items') (.list id items)
  | mapping (id' id : NodeId) {es' es : Entries} (entries : Entries.Alike R es' es) :
    Alike R (.mapping id' es') (.mapping id es)
  | pair (id' id : NodeId) {a' b' a b : Value} (first : R a' a) (second : R b' b) :
    Alike R (.pair id' a' b') (.pair id a b)
  | set (id' id : NodeId) (members : List Scalar) : Alike R (.set id' members) (.set id members)

namespace Graph.IsCopy

variable {g' g : Graph} {R : Value → Value → Prop} (copy : IsCopy g' g R) {v' v : Value}

include copy

theorem eq_scalar_iff (related : R v' v) {s : Scalar} : v' = .scalar s ↔ v = .scalar s := by
  have shape := copy.shape v' v related
  have node : ∀ (h : Graph) id s, h.shape (.node id) ≠ .scalar s := by
    intro h id s
    rw [Graph.shape]
    cases h.nodes[id]? with
    | none => simp
    | some n => cases n <;> simp [Node.shape]
  cases v' with
  | scalar s' =>
    cases v with
    | scalar s => simp_all [Graph.shape]
    | node id => exact absurd shape.symm (node g id s')
  | node id' =>
    cases v with
    | scalar s => exact absurd shape (node g' id' s)
    | node id => simp

theorem asReference (related : R v' v) : v'.asReference = v.asReference := by
  cases v with
  | scalar s => rw [(copy.eq_scalar_iff related).mpr rfl]
  | node id =>
    cases v' with
    | scalar s => cases (copy.eq_scalar_iff related).mp rfl
    | node id' => rfl

theorem view (related : R v' v) : View.Alike R (g'.view v') (g.view v) := by
  have shape := copy.shape v' v related
  have parts := copy.parts v' v related
  cases v' with
  | scalar s =>
    obtain rfl := (copy.eq_scalar_iff related).mp rfl
    exact .scalar s
  | node id' =>
    cases v with
    | scalar s => cases (copy.eq_scalar_iff related).mpr rfl
    | node id =>
      simp only [Graph.shape, Graph.parts] at shape parts
      simp only [Graph.view]
      cases node' : g'.nodes[id']? with
      | none =>
        cases node : g.nodes[id]? with
        | none => exact .scalar .null
        | some n =>
          rw [node', node] at shape
          cases n <;> cases shape
      | some n' =>
        cases node : g.nodes[id]? with
        | none =>
          rw [node', node] at shape
          cases n' <;> cases shape
        | some n =>
          rw [node', node] at shape parts
          simp only [Option.map_some, Option.getD_some] at shape parts
          cases n' with
          | list items' =>
            cases n with
            | list items => exact .list id' id parts
            | _ => cases shape
          | mapping es' =>
            cases n with
            | mapping es =>
              exact .mapping id' id (Entries.alike_of_parts (Shape.mapping.inj shape) parts)
            | _ => cases shape
          | pair a' b' =>
            cases n with
            | pair a b =>
              cases parts with
              | cons first parts =>
                cases parts with
                | cons second _ => exact .pair id' id first second
            | _ => cases shape
          | set members' =>
            cases n with
            | set members =>
              cases shape
              exact .set id' id members'
            | _ => cases shape

theorem truthy (related : R v' v) : g'.truthy v' = g.truthy v := by
  have alike := copy.view related
  unfold Graph.truthy
  generalize g'.view v' = view', g.view v = view at alike ⊢
  cases alike with
  | list id' id items => cases items <;> rfl
  | mapping id' id entries => cases entries <;> rfl
  | _ => rfl

theorem entries? (related : R v' v) :
    Option.Rel (Entries.Alike R) (g'.entries? v') (g.entries? v) := by
  have alike := copy.view related
  unfold Graph.entries?
  generalize g'.view v' = view', g.view v = view at alike ⊢
  cases alike with
  | mapping id' id entries => exact .some entries
  | _ => exact .none

theorem scalars (l : List Value) (scalar : ∀ v ∈ l, ∃ s, v = .scalar s) : List.Forall₂ R l l :=
  List.forall₂_same.mpr fun v member => by
    obtain ⟨s, rfl⟩ := scalar v member
    exact copy.scalar s

theorem elements? (related : R v' v) :
    Option.Rel (List.Forall₂ R) (g'.elements? v') (g.elements? v) := by
  have alike := copy.view related
  unfold Graph.elements?
  generalize g'.view v' = view', g.view v = view at alike ⊢
  cases alike with
  | scalar s =>
    cases s with
    | text s => exact .some (copy.scalars _ (by simp [Value.text]))
    | bytes bs => exact .some (copy.scalars _ (by simp))
    | _ => exact .none
  | list id' id items => exact .some items
  | mapping id' id entries =>
    refine .some (List.forall₂_map_left_iff.mpr (List.forall₂_map_right_iff.mpr ?_))
    exact entries.imp fun e' e same => same.1 ▸ copy.scalar e'.1
  | pair id' id first second => exact .some (.cons first (.cons second .nil))
  | set id' id members => exact .some (copy.scalars _ (by simp))

omit copy in
theorem lookup? {es' es : Entries} (entries : Entries.Alike R es' es) (key : Scalar) :
    Option.Rel R (Entries.lookup? es' key) (Entries.lookup? es key) := by
  unfold Entries.lookup?
  induction entries with
  | nil => exact .none
  | @cons e' e es' es same _ ih =>
    rw [List.find?_cons, List.find?_cons, same.1]
    cases e.1.same key with
    | true => exact .some same.2
    | false => exact ih

theorem field {es' es : Entries} (entries : Entries.Alike R es' es) (name : String) :
    R (es'.field name) (es.field name) := by
  have found := lookup? entries (.text name)
  unfold Entries.field
  generalize Entries.lookup? es' (.text name) = v', Entries.lookup? es (.text name) = v at found ⊢
  cases found with
  | some related => exact related
  | none => exact copy.scalar .null

theorem optionalElements (related : R v' v) :
    (∃ vs' vs, g'.optionalElements v' = .ok vs' ∧ g.optionalElements v = .ok vs ∧
      List.Forall₂ R vs' vs ∧ (vs = [] ∨ g.elements? v = some vs)) ∨
    ∃ s, g'.optionalElements v' = .error s ∧ g.optionalElements v = .error s := by
  have elements := copy.elements? related
  unfold Graph.optionalElements Graph.elements
  rw [copy.truthy related]
  cases g.truthy v with
  | false => exact .inl ⟨[], [], rfl, rfl, .nil, .inl rfl⟩
  | true =>
    generalize g'.elements? v' = vs', g.elements? v = vs at elements ⊢
    cases elements with
    | some related => exact .inl ⟨_, _, rfl, rfl, related, .inr rfl⟩
    | none => exact .inr ⟨_, rfl, rfl⟩

theorem comparables {vs' vs : List Value} (related : List.Forall₂ R vs' vs) :
    g'.comparables vs' = g.comparables vs := by
  induction related with
  | nil => rfl
  | cons here _ ih =>
    have alike := copy.view here
    unfold Graph.comparables
    rw [ih]
    generalize g'.view _ = view', g.view _ = view at alike ⊢
    cases alike with
    | pair id' id first second =>
      have left := fun s => copy.eq_scalar_iff first (s := s)
      have right := fun s => copy.eq_scalar_iff second (s := s)
      split <;> split <;> simp_all
    | _ => rfl

/-- A copy of a value that has a tree has the same tree. -/
theorem unfolds (related : R v' v) {t : Tree} (unfolds : g.Unfolds v t) : g'.Unfolds v' t := by
  induction unfolds generalizing v' with
  | @intro v t shape length parts ih =>
    refine unfolds_iff.mpr ⟨by rw [copy.shape v' v related, shape], ?_⟩
    have below : List.Forall₂ (fun w u => ∀ w', R w' w → g'.Unfolds w' u) (g.parts v) t.parts :=
      List.forall₂_iff_zip.mpr ⟨length, fun zipped w' part => ih _ zipped part⟩
    exact forall₂_trans (fun w' _ _ part unfolds => unfolds w' part) (copy.parts v' v related) below

/-- A copy of a value that has a tree has the same text. -/
theorem textOf (related : R v' v) {t : Tree} (unfolds : g.Unfolds v t) :
    g'.textOf v' = g.textOf v := by
  have unfolds' := copy.unfolds related unfolds
  cases v with
  | scalar s =>
    obtain rfl := (copy.eq_scalar_iff related).mpr rfl
    rfl
  | node id =>
    cases v' with
    | scalar s => cases (copy.eq_scalar_iff related).mp rfl
    | node id' =>
      unfold Graph.textOf Graph.hasText Graph.display
      simp only [unfolds.unfold_eq, unfolds'.unfold_eq]

end Graph.IsCopy

end TypedClient
