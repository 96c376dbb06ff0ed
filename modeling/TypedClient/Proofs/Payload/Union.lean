import Mathlib.Data.List.Induction
import TypedClient.Payload
import TypedClient.Proofs.Failure.Success
import TypedClient.Proofs.Text.Lists

/-!
# Unions of types

The union of the types of several items grows item by item: a type whose text is there already adds
nothing, any other goes to the end, beside the media type that it came from. So the texts of a union
are distinct, and the union for two lists of items in a row is the union for the first, followed by
what the union for the second adds to it. Items in a row fail as the first of the two lists that fails.
-/
namespace TypedClient.Payload

/-- The media types beside the texts of a union. -/
def media (p : Payload) : List (Option MediaType) := p.types.map (·.2)

/-- A union with what one more item contributes. -/
def add (p : Payload) (c : Contribution) : Payload where
  types := if c.text ∈ p.values then p.types else p.types ++ [(c.text, c.media)]
  imports := p.imports ++ (Text.distinct c.imports).filter fun n => n ∉ p.imports

/-- A union followed by what another one adds to it. -/
def union (p q : Payload) : Payload where
  types := p.types ++ q.types.filter fun t => t.1 ∉ p.values
  imports := p.imports ++ q.imports.filter fun n => n ∉ p.imports

section Step

variable (p q : Payload) (c : Contribution)

theorem types_add :
    (p.add c).types = if c.text ∈ p.values then p.types else p.types ++ [(c.text, c.media)] := rfl

theorem types_union :
    (p.union q).types = p.types ++ q.types.filter fun t => t.1 ∉ p.values := rfl

theorem values_add :
    (p.add c).values = if c.text ∈ p.values then p.values else p.values ++ [c.text] := by
  rw [values, types_add]
  split
  · rfl
  · simp [values]

theorem values_union : (p.union q).values = p.values ++ q.values.filter fun s => s ∉ p.values := by
  simp only [union, values, List.map_append, List.filter_map]
  rfl

theorem mem_values_union {s : String} :
    s ∈ (p.union q).values ↔ s ∈ p.values ∨ s ∈ q.values := by
  rw [values_union, List.mem_append, List.mem_filter]
  by_cases known : s ∈ p.values <;> simp [known]

/-- No text comes in twice. -/
theorem nodup_values_add (nodup : p.values.Nodup) : (p.add c).values.Nodup := by
  rw [values_add]
  split
  · exact nodup
  · next new =>
    simp only [List.nodup_append, List.mem_singleton]
    refine ⟨nodup, by simp, ?_⟩
    rintro s known _ rfl rfl
    exact new known

/-- One more item adds the same to two unions in a row as to the second of them. -/
theorem union_add : p.union (q.add c) = (p.union q).add c := by
  have types : (p.union (q.add c)).types = ((p.union q).add c).types := by
    simp only [types_union, types_add, mem_values_union]
    by_cases known : c.text ∈ q.values
    · simp only [known, or_true, if_true]
    · by_cases before : c.text ∈ p.values <;> simp [known, before]
  have imports : (p.union (q.add c)).imports = ((p.union q).add c).imports := by
    simp only [add, union, List.filter_append, List.filter_filter, List.append_assoc]
    congr 2
    apply List.filter_congr
    intro n _
    by_cases before : n ∈ p.imports <;> simp [before]
  cases u : p.union (q.add c)
  cases v : (p.union q).add c
  rw [u, v] at types imports
  exact congrArg₂ Payload.mk types imports

end Step

/-! ### Whole unions -/

theorem firsts_concat (ts : List (String × Option MediaType)) (t : String × Option MediaType) :
    firsts (ts ++ [t]) = if t.1 ∈ ts.map (·.1) then firsts ts else firsts ts ++ [t] := by
  induction ts with
  | nil => rfl
  | cons u ts ih =>
    rw [List.cons_append, firsts, ih, firsts, List.map_cons]
    by_cases later : t.1 ∈ ts.map (·.1)
    · rw [if_pos later, if_pos (List.mem_cons_of_mem _ later)]
    · by_cases here : t.1 = u.1
      · rw [if_neg later, if_pos (here ▸ List.mem_cons_self), List.filter_append]
        simp [here]
      · rw [if_neg later, if_neg fun member => (List.mem_cons.mp member).elim here later, List.filter_append]
        simp [here]

theorem map_fst_firsts (ts : List (String × Option MediaType)) :
    (firsts ts).map (·.1) = Text.distinct (ts.map (·.1)) := by
  induction ts with
  | nil => rfl
  | cons t ts ih =>
    rw [firsts, List.map_cons, List.map_cons, Text.distinct, ← ih, List.filter_map]
    rfl

theorem mem_values_ofContributions {cs : List Contribution} {s : String} :
    s ∈ (ofContributions cs).values ↔ ∃ c ∈ cs, c.text = s := by
  rw [values, ofContributions, map_fst_firsts, Text.mem_distinct, List.map_map, List.mem_map]
  rfl

theorem ofContributions_concat (cs : List Contribution) (c : Contribution) :
    ofContributions (cs ++ [c]) = (ofContributions cs).add c := by
  have known : c.text ∈ (ofContributions cs).values ↔
      c.text ∈ (cs.map fun d => (d.text, d.media)).map (·.1) := by
    rw [mem_values_ofContributions]
    simp
  rw [ofContributions, List.map_append, List.map_singleton, firsts_concat, List.flatMap_append,
    Text.distinct_append, add]
  simp only [known]
  congr 2
  simp [ofContributions]

theorem nodup_values (cs : List Contribution) : (ofContributions cs).values.Nodup := by
  induction cs using List.reverseRecOn with
  | nil => exact List.nodup_nil
  | append_singleton cs c ih =>
    rw [ofContributions_concat]
    exact nodup_values_add _ c ih

theorem ofContributions_append (cs ds : List Contribution) :
    ofContributions (cs ++ ds) = (ofContributions cs).union (ofContributions ds) := by
  induction ds using List.reverseRecOn with
  | nil => simp [ofContributions, firsts, Text.distinct, union]
  | append_singleton ds d ih =>
    rw [← List.append_assoc, ofContributions_concat, ih, ofContributions_concat, union_add]

/-! ### What items contribute -/

/-- What the item contributes to a union. -/
def Contributes (g : Graph) (item : String × Value) (c : Contribution) : Prop :=
  Contribution.ofItem? g item.1 item.2 = .ok (some c)

section Items

variable {g : Graph} {items : List (String × Value)} {p : Payload}

theorem Contributes.unique {item : String × Value} {c d : Contribution}
    (here : Contributes g item c) (there : Contributes g item d) : c = d := by
  cases here.symm.trans there
  rfl

/-- The union for items is that of what they contribute. -/
theorem exists_contributions (success : ofItems g items = .ok p) :
    ∃ cs, p = ofContributions cs ∧ ∀ c, c ∈ cs ↔ ∃ i ∈ items, Contributes g i c := by
  obtain ⟨found, each, success⟩ := Except.bind_eq_ok success
  cases success
  refine ⟨found.filterMap id, rfl, fun c => ?_⟩
  simp only [List.mem_filterMap, id_eq, exists_eq_right]
  constructor
  · intro member
    exact Except.exists_mem_of_mapM each _ member
  · rintro ⟨i, listed, contributes⟩
    obtain ⟨c', member, same⟩ := Except.exists_of_mapM each i listed
    cases contributes.symm.trans same
    exact member

/-- Where there is a union for items, each of them contributes something or is missing. -/
theorem exists_ofItem? (success : ofItems g items = .ok p) :
    ∀ i ∈ items, ∃ c, Contribution.ofItem? g i.1 i.2 = .ok c := by
  obtain ⟨found, each, -⟩ := Except.bind_eq_ok success
  intro i listed
  obtain ⟨c, -, succeeds⟩ := Except.exists_of_mapM each i listed
  exact ⟨c, succeeds⟩

end Items

variable {g : Graph}

/-- A run over items in a row is a run over the first of them and then over the others. -/
theorem ofItems_append (xs ys : List (String × Value)) :
    ofItems g (xs ++ ys) = do return (← ofItems g xs).union (← ofItems g ys) := by
  unfold ofItems
  rw [List.mapM_append]
  cases xs.mapM fun item => Contribution.ofItem? g item.1 item.2 with
  | error s => rfl
  | ok cs =>
    cases ys.mapM fun item => Contribution.ofItem? g item.1 item.2 with
    | error s => rfl
    | ok ds =>
      have whole := ofContributions_append (cs.filterMap id) (ds.filterMap id)
      rw [← List.filterMap_append] at whole
      exact congrArg Except.ok whole

/-- If both lists of items have a union, so have the items in a row: its texts are those of the first
union and then the new ones of the second, each beside its media type, which is that of the first union
where both have the text, and so it is with the imports. No union has a text twice or a text without its
place among the media types. The items in a row fail exactly as the first list does, or as the second
does where the first has a union. -/
theorem union_of_items_in_a_row (g : Graph) :
    (∀ xs ys p q, ofItems g xs = .ok p → ofItems g ys = .ok q → ∃ r, ofItems g (xs ++ ys) = .ok r ∧
      r.values = p.values ++ (q.values.filter fun s => s ∉ p.values) ∧
      r.types = p.types ++ (q.types.filter fun t => t.1 ∉ p.values) ∧
      r.media = p.media ++ (q.types.filter fun t => t.1 ∉ p.values).map (·.2) ∧
      r.imports = p.imports ++ (q.imports.filter fun n => n ∉ p.imports)) ∧
    (∀ xs r, ofItems g xs = .ok r →
      r.values.Nodup ∧ r.media.length = r.values.length ∧ r.values.zip r.media = r.types) ∧
    (∀ xs ys s, ofItems g (xs ++ ys) = .error s ↔
      ofItems g xs = .error s ∨ ∃ p, ofItems g xs = .ok p ∧ ofItems g ys = .error s) := by
  refine ⟨?_, ?_, ?_⟩
  · intro xs ys p q first second
    have whole : ofItems g (xs ++ ys) = .ok (p.union q) := by
      rw [ofItems_append, first, second]
      rfl
    exact ⟨p.union q, whole, values_union p q, types_union p q, List.map_append, rfl⟩
  · intro xs r success
    obtain ⟨cs, rfl, -⟩ := exists_contributions success
    refine ⟨nodup_values _, by simp only [media, values, List.length_map], ?_⟩
    simp only [values, media, List.zip_map']
    exact List.map_id _
  · intro xs ys s
    rw [ofItems_append]
    cases first : ofItems g xs with
    | error s' => simp [bind, Except.bind]
    | ok p => cases second : ofItems g ys <;> simp [bind, Except.bind, pure, Except.pure]

/-- Answers about pets: a pet, a text that may be printed, the same text to be read, and a reference. -/
def petAnswers : Graph :=
  ⟨#[.mapping [(.text "content", .node 1)],
     .mapping [(.text "application/json", .node 2)],
     .mapping [(.text "schema", .node 3)],
     .mapping [(.text "$ref", .text "#/components/schemas/Pet")],
     .mapping [(.text "content", .node 5)],
     .mapping [(.text "application/pdf", .node 6)],
     .mapping [(.text "schema", .node 7)],
     .mapping [(.text "type", .text "string")],
     .mapping [(.text "content", .node 9)],
     .mapping [(.text "application/json", .node 6)],
     .mapping [(.text "$ref", .text "#/components/responses/Gone")]]⟩

theorem printed_text_stays_beside_its_media_type :
    ofItems petAnswers [("#/200", .node 0), ("#/201", .node 4)] =
      .ok ⟨[("Pet", some .json), ("string", some .pdf)], ["Pet"]⟩ ∧
    ofItems petAnswers [("#/202", .node 8), ("#/203", .node 10), ("#/204", .node 0)] =
      .ok ⟨[("string", some .json), ("GoneResponse", none), ("Pet", some .json)],
        ["GoneResponse", "Pet"]⟩ ∧
    ofItems petAnswers [("#/200", .node 0), ("#/201", .node 4), ("#/202", .node 8),
        ("#/203", .node 10), ("#/204", .node 0)] =
      .ok ⟨[("Pet", some .json), ("string", some .pdf), ("GoneResponse", none)],
        ["Pet", "GoneResponse"]⟩ := by
  have first : ofItems petAnswers [("#/200", .node 0), ("#/201", .node 4)] =
      .ok ⟨[("Pet", some .json), ("string", some .pdf)], ["Pet"]⟩ := by
    with_unfolding_all rfl
  have second : ofItems petAnswers [("#/202", .node 8), ("#/203", .node 10), ("#/204", .node 0)] =
      .ok ⟨[("string", some .json), ("GoneResponse", none), ("Pet", some .json)],
        ["GoneResponse", "Pet"]⟩ := by
    with_unfolding_all rfl
  obtain ⟨r, whole, -, types, -, imports⟩ :=
    (union_of_items_in_a_row petAnswers).1 _ _ _ _ first second
  refine ⟨first, second, whole.trans (congrArg Except.ok ?_)⟩
  cases r
  exact congrArg₂ Payload.mk types imports

end TypedClient.Payload
