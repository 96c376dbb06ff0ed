import Mathlib.Data.List.Forall2
import Mathlib.Data.List.Induction
import TypedClient.Proofs.Parameter.Dereference
import TypedClient.Proofs.Parameter.References

/-!
# Parameters of a route and of its operation in one list

The parameters in force are those of the route and behind them those of the operation, but for each
name and place only the last one: it stands where the first of them stood. So a parameter of the
operation goes before one of the route, and none is lost that no later one overrides.
-/
namespace TypedClient.Declaration

/-- The second list has one entry for each key of the first, the last with this key, in the order in
which the keys first come. -/
structure Overridden (all ds : List Declaration) : Prop where
  keys : ∀ k, k ∈ ds.map key ↔ k ∈ all.map key
  /-- No key comes twice, as none comes before itself. -/
  order : (ds.map key).Pairwise fun k k' => (all.map key).idxOf k < (all.map key).idxOf k'
  last : ∀ d ∈ ds, ∃ before after, all = before ++ d :: after ∧ ∀ e ∈ after, e.key ≠ d.key

/-! ### One declaration after another -/

theorem mem_override_iff {ds : List Declaration} (distinct : (ds.map key).Nodup)
    {d e : Declaration} : e ∈ override ds d ↔ e = d ∨ e ∈ ds ∧ e.key ≠ d.key := by
  induction ds with
  | nil => simp [override]
  | cons first rest ih =>
    rw [List.map_cons, List.nodup_cons] at distinct
    unfold override
    by_cases same : first.name = d.name ∧ first.place = d.place
    · have equal : first.key = d.key := Prod.ext same.1 same.2
      have others : ∀ e ∈ rest, e.key ≠ d.key := fun e member again =>
        distinct.1 (equal ▸ again ▸ List.mem_map_of_mem member)
      rw [if_pos same, List.mem_cons, List.mem_cons]
      constructor
      · rintro (rfl | member)
        · exact .inl rfl
        · exact .inr ⟨.inr member, others e member⟩
      · rintro (rfl | ⟨rfl | member, other⟩)
        · exact .inl rfl
        · exact absurd equal other
        · exact .inr member
    · have other : first.key ≠ d.key := fun equal =>
        same ⟨congrArg Prod.fst equal, congrArg Prod.snd equal⟩
      rw [if_neg same, List.mem_cons, ih distinct.2, List.mem_cons]
      constructor
      · rintro (rfl | rfl | ⟨member, different⟩)
        · exact .inr ⟨.inl rfl, other⟩
        · exact .inl rfl
        · exact .inr ⟨.inr member, different⟩
      · rintro (rfl | ⟨rfl | member, different⟩)
        · exact .inr (.inl rfl)
        · exact .inl rfl
        · exact .inr (.inr ⟨member, different⟩)

theorem Overridden.nil : Overridden [] [] := ⟨fun _ => Iff.rfl, .nil, nofun⟩

section Step

variable {all ds : List Declaration} (overridden : Overridden all ds)

include overridden

theorem Overridden.nodup : (ds.map key).Nodup := by
  refine overridden.order.imp ?_
  rintro k _ before rfl
  exact Nat.lt_irrefl _ before

/-- A declaration that no later one overrides is in force. -/
theorem Overridden.kept {before after : List Declaration} {d : Declaration}
    (here : all = before ++ d :: after) (final : ∀ e ∈ after, e.key ≠ d.key) : d ∈ ds := by
  have listed : d.key ∈ ds.map key := (overridden.keys d.key).mpr <| by
    rw [here]
    simp
  obtain ⟨e, member, same⟩ := List.mem_map.mp listed
  obtain ⟨before', after', there, final'⟩ := overridden.last e member
  -- the two stand in one list, and behind neither of them comes their key again
  rcases List.append_eq_append_iff.mp (here.symm.trans there) with
    ⟨between, rfl, rest⟩ | ⟨between, rfl, rest⟩
  · cases between with
    | nil =>
      cases rest
      exact member
    | cons first between =>
      obtain ⟨-, rfl⟩ := List.cons.inj rest
      exact absurd same (final e (by simp))
  · cases between with
    | nil =>
      cases rest
      exact member
    | cons first between =>
      obtain ⟨-, rfl⟩ := List.cons.inj rest
      exact absurd same.symm (final' d (by simp))

/-- One more declaration takes the place of the one with its key, or goes to the end. -/
theorem Overridden.append (d : Declaration) : Overridden (all ++ [d]) (override ds d) where
  keys k := by
    rw [map_key_override, List.map_append, List.mem_append, ← overridden.keys]
    by_cases listed : d.key ∈ ds.map key
    · rw [if_pos listed]
      exact ⟨.inl, fun member => member.elim id fun last => List.mem_singleton.mp last ▸ listed⟩
    · rw [if_neg listed, List.mem_append]
      rfl
  order := by
    -- where a key first comes is not changed by what is added behind it
    have earlier : ∀ k ∈ ds.map key, ((all ++ [d]).map key).idxOf k = (all.map key).idxOf k := by
      intro k member
      rw [List.map_append, List.idxOf_append_of_mem ((overridden.keys k).mp member)]
    have still : (ds.map key).Pairwise fun k k' =>
        ((all ++ [d]).map key).idxOf k < ((all ++ [d]).map key).idxOf k' :=
      overridden.order.imp_of_mem fun here there less => by rwa [earlier _ here, earlier _ there]
    rw [map_key_override]
    split
    · exact still
    · next new =>
      refine List.pairwise_append.mpr ⟨still, List.pairwise_singleton _ _, fun k member k' last => ?_⟩
      obtain rfl := List.mem_singleton.mp last
      rw [overridden.keys] at new
      rw [earlier k member, List.map_append, List.idxOf_append_of_notMem new]
      exact Nat.lt_add_right _ (List.idxOf_lt_length_of_mem ((overridden.keys k).mp member))
  last e member := by
    rcases (mem_override_iff overridden.nodup).mp member with rfl | ⟨member, other⟩
    · exact ⟨all, [], rfl, nofun⟩
    · obtain ⟨before, after, rfl, final⟩ := overridden.last e member
      refine ⟨before, after ++ [d], by simp, fun e' behind => ?_⟩
      rcases List.mem_append.mp behind with behind | last
      · exact final e' behind
      · exact List.mem_singleton.mp last ▸ other.symm

end Step

/-- Declarations that are added one after the other override those before them. -/
theorem overridden_foldl (all : List Declaration) : Overridden all (all.foldl override []) := by
  induction all using List.reverseRecOn with
  | nil => exact .nil
  | append_singleton all d ih =>
    rw [List.foldl_append]
    exact ih.append d

/-! ### Whole lists -/

section Lists

variable {g : Graph} {components : Value} {vs vs' ws : List Value} {s : List Declaration}

/-- Entries are declared as what they stand for. -/
theorem ofList_eq (stand : List.Forall₂ (StandsFor g components) vs ws)
    (declare : List.Forall₂ (Declares g) ws s) (base : String) :
    ofList g components base vs = .ok s := by
  unfold ofList
  generalize 0 = start
  induction stand generalizing s start with
  | nil =>
    cases declare
    rfl
  | cons here _ ih =>
    cases declare with
    | cons declares declare =>
      simp only [List.zipIdx_cons, List.mapM_cons]
      rw [ofValue_eq_ok_iff.mpr ⟨_, here, declares⟩, Except.ok_bind, ih declare]
      rfl

/-- Entries are not declared if one of them stands for a parameter without a key. -/
theorem ofList_eq_error (stand : List.Forall₂ (StandsFor g components) vs ws)
    (unnamed : ∃ w ∈ ws, ¬HasKey g w) (base : String) :
    ofList g components base vs = malformed .numberTooLong := by
  unfold ofList
  generalize 0 = start
  induction stand generalizing start with
  | nil => exact absurd unnamed (by simp)
  | @cons v w vs ws here _ ih =>
    simp only [List.zipIdx_cons, List.mapM_cons]
    by_cases named : HasKey g w
    · obtain ⟨d, declares⟩ := exists_declares here.isMapping named
      have later : ∃ w ∈ ws, ¬HasKey g w := by simpa [named] using unnamed
      rw [ofValue_eq_ok_iff.mpr ⟨w, here, declares⟩, Except.ok_bind, ih later]
      rfl
    · rw [ofValue_of_not_hasKey here named]
      rfl

theorem exists_declares_each (stand : List.Forall₂ (StandsFor g components) vs ws)
    (named : ∀ w ∈ ws, HasKey g w) : ∃ s, List.Forall₂ (Declares g) ws s := by
  induction stand with
  | nil => exact ⟨[], .nil⟩
  | cons here _ ih =>
    obtain ⟨d, declares⟩ := exists_declares here.isMapping (named _ List.mem_cons_self)
    obtain ⟨s, rest⟩ := ih fun w member => named w (List.mem_cons_of_mem _ member)
    exact ⟨d :: s, .cons declares rest⟩

/-- The parameters of a route and of its operation, each with its reference followed, are merged in
order: there is one entry for each name and place, and it is the last that has them, so that of the
operation where there is one. It stands in the order in which the names and places first come, and no
parameter is lost that is not overridden. Only where a name or a place cannot be written there is no
list. -/
theorem merge_overrides_in_order {shared own ws ws' : List Value}
    (stand : List.Forall₂ (StandsFor g components) shared ws)
    (stand' : List.Forall₂ (StandsFor g components) own ws') (p : String) :
    ((∀ w ∈ ws ++ ws', HasKey g w) → ∃ all ds, List.Forall₂ (Declares g) (ws ++ ws') all ∧
      merge g components p (.ok shared) (.ok own) = .ok ds ∧ (ds.map key).Nodup ∧
      Overridden all ds ∧
      ∀ before d after, all = before ++ d :: after → (∀ e ∈ after, e.key ≠ d.key) → d ∈ ds) ∧
    ((∃ w ∈ ws ++ ws', ¬HasKey g w) →
      merge g components p (.ok shared) (.ok own) = malformed .numberTooLong) := by
  constructor
  · intro named
    rw [List.forall_mem_append] at named
    obtain ⟨s, declare⟩ := exists_declares_each stand named.1
    obtain ⟨s', declare'⟩ := exists_declares_each stand' named.2
    have merged : merge g components p (.ok shared) (.ok own) =
        .ok ((s ++ s').foldl override []) := by
      unfold merge
      rw [Except.ok_bind, ofList_eq stand declare, Except.ok_bind, Except.ok_bind,
        ofList_eq stand' declare']
      rfl
    have overridden := overridden_foldl (s ++ s')
    exact ⟨s ++ s', _, List.rel_append declare declare', merged, overridden.nodup, overridden,
      fun _ _ _ here final => overridden.kept here final⟩
  · rintro ⟨w, member, unnamed⟩
    unfold merge
    rw [Except.ok_bind]
    by_cases first : ∃ w ∈ ws, ¬HasKey g w
    · rw [ofList_eq_error stand first]
      rfl
    · have named : ∀ w ∈ ws, HasKey g w := by simpa using first
      have second : ∃ w ∈ ws', ¬HasKey g w := by
        refine ⟨w, (List.mem_append.mp member).resolve_left fun inside => ?_, unnamed⟩
        exact unnamed (named w inside)
      obtain ⟨s, declare⟩ := exists_declares_each stand named
      rw [ofList_eq stand declare, Except.ok_bind, Except.ok_bind, ofList_eq_error stand' second]
      rfl

end Lists

/-- What a route and its operation declare: the route a pet in the path and a reference to a trace, the
operation a pet in the path and in the query and twice how to sort. -/
def petLists : Graph :=
  ⟨#[.mapping [(.text "parameters", .node 1)],
     .mapping [(.text "Trace", .node 2)],
     .mapping [(.text "name", .text "trace"), (.text "in", .text "header")],
     .mapping [(.text "name", .text "petId"), (.text "in", .text "path")],
     .mapping [(.text "$ref", .text "#/components/parameters/Trace")],
     .mapping [(.text "name", .text "sort"), (.text "in", .text "query")],
     .mapping [(.text "name", .text "petId"), (.text "in", .text "query")],
     .mapping [(.text "name", .text "sort"), (.text "in", .text "query"),
       (.text "required", .scalar (.bool true))],
     .mapping [(.text "name", .text "petId"), (.text "in", .text "path"),
       (.text "required", .scalar (.bool true))]]⟩

theorem pet_is_declared_by_its_operation :
    ∃ ds, merge petLists (.node 0) "#/paths/~1pets/get" (.ok [.node 3, .node 4])
        (.ok [.node 5, .node 6, .node 7, .node 8]) = .ok ds ∧
      ds.map key = [("petId", "path"), ("trace", "header"), ("sort", "query"), ("petId", "query")] ∧
      ds.map (·.value) = [.node 8, .node 2, .node 7, .node 6] ∧ (ds.map key).Nodup := by
  have inline : ∀ id ∈ [3, 5, 6, 7, 8], StandsFor petLists (.node 0) (.node id) (.node id) := by
    intro id member
    have shape : Schema.isReference petLists (.node id) = false ∧
        petLists.isMapping (.node id) = true := by
      revert id
      decide
    exact .itself shape.1 shape.2
  have trace : StandsFor petLists (.node 0) (.node 4) (.node 2) :=
    .component ⟨⟨"Trace", by decide, by decide, by decide, by decide⟩, by decide⟩
  have stand : List.Forall₂ (StandsFor petLists (.node 0)) [.node 3, .node 4]
      [.node 3, .node 2] := .cons (inline 3 (by decide)) (.cons trace .nil)
  have stand' : List.Forall₂ (StandsFor petLists (.node 0)) [.node 5, .node 6, .node 7, .node 8]
      [.node 5, .node 6, .node 7, .node 8] :=
    .cons (inline 5 (by decide)) (.cons (inline 6 (by decide))
      (.cons (inline 7 (by decide)) (.cons (inline 8 (by decide)) .nil)))
  obtain ⟨merged, -⟩ := merge_overrides_in_order stand stand' "#/paths/~1pets/get"
  obtain ⟨all, ds, -, success, distinct, -⟩ := merged (by decide)
  have evaluated : ((merge petLists (.node 0) "#/paths/~1pets/get" (.ok [.node 3, .node 4])
      (.ok [.node 5, .node 6, .node 7, .node 8])).toOption.map fun ds =>
        (ds.map key, ds.map (·.value))) =
      some ([("petId", "path"), ("trace", "header"), ("sort", "query"), ("petId", "query")],
        [.node 8, .node 2, .node 7, .node 6]) := by
    decide +kernel
  rw [success] at evaluated
  obtain ⟨keys, values⟩ := Prod.mk.inj (Option.some.inj evaluated)
  exact ⟨ds, success, keys, values, distinct⟩

end TypedClient.Declaration
