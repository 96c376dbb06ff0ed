import TypedClient.Failure

/-!
# Steps that succeed

A run of steps stops at the first failure, so whatever succeeds is made of steps that succeed. The
statements take such a run apart, and say what the fields and elements are that were asked of a
value.
-/
namespace TypedClient

theorem Except.ok_bind {ε α β : Type} (a : α) (next : α → Except ε β) :
    (Except.ok a >>= next) = next a := rfl

theorem Except.bind_eq_ok {ε α β : Type} {step : Except ε α} {next : α → Except ε β} {b : β}
    (success : (step >>= next) = .ok b) : ∃ a, step = .ok a ∧ next a = .ok b := by
  cases step with
  | error e => cases success
  | ok a => exact ⟨a, rfl, success⟩

theorem Except.exists_ok {ε α : Type} {step : Except ε α} (some : step.toOption.isSome = true) :
    ∃ a, step = .ok a := by
  cases step with
  | error e => cases some
  | ok a => exact ⟨a, rfl⟩

theorem Except.exists_of_map_toOption {ε α β : Type} {step : Except ε α} {f : α → β} {b : β}
    (evaluated : step.toOption.map f = some b) : ∃ a, step = .ok a ∧ f a = b := by
  cases step with
  | error e => cases evaluated
  | ok a => exact ⟨a, rfl, Option.some.inj evaluated⟩

section Each

variable {α β : Type} {f : α → Result β} {l : List α} {l' : List β}

/-- Where a step has succeeded for each element of a list, its results are those of the elements. -/
theorem Except.exists_mem_of_mapM (success : l.mapM f = .ok l') :
    ∀ y ∈ l', ∃ x ∈ l, f x = .ok y := by
  induction l generalizing l' with
  | nil =>
    cases success
    simp
  | cons x l ih =>
    rw [List.mapM_cons] at success
    obtain ⟨y, head, success⟩ := Except.bind_eq_ok success
    obtain ⟨ys, tail, success⟩ := Except.bind_eq_ok success
    cases success
    intro z hz
    rcases List.mem_cons.mp hz with rfl | hz
    · exact ⟨x, List.mem_cons_self, head⟩
    · obtain ⟨x', member, here⟩ := ih tail z hz
      exact ⟨x', List.mem_cons_of_mem _ member, here⟩

theorem Except.exists_of_mapM (success : l.mapM f = .ok l') : ∀ x ∈ l, ∃ y ∈ l', f x = .ok y := by
  induction l generalizing l' with
  | nil => simp
  | cons x l ih =>
    rw [List.mapM_cons] at success
    obtain ⟨y, head, success⟩ := Except.bind_eq_ok success
    obtain ⟨ys, tail, success⟩ := Except.bind_eq_ok success
    cases success
    intro z hz
    rcases List.mem_cons.mp hz with rfl | hz
    · exact ⟨y, List.mem_cons_self, head⟩
    · obtain ⟨y', member, here⟩ := ih tail z hz
      exact ⟨y', List.mem_cons_of_mem _ member, here⟩

/-- Where the result of a step is known from its element, so are those of all steps. -/
theorem Except.eq_map_of_mapM {h : α → β} (each : ∀ x y, f x = .ok y → y = h x)
    (success : l.mapM f = .ok l') : l' = l.map h := by
  induction l generalizing l' with
  | nil =>
    cases success
    rfl
  | cons x l ih =>
    rw [List.mapM_cons] at success
    obtain ⟨y, head, success⟩ := Except.bind_eq_ok success
    obtain ⟨ys, tail, success⟩ := Except.bind_eq_ok success
    cases success
    rw [List.map_cons, each x y head, ih tail]

/-- A step that goes as another one wherever that succeeds does so for all elements of a list. -/
theorem Except.mapM_of_mapM {h : α → Result β} (each : ∀ x y, f x = .ok y → h x = .ok y)
    (success : l.mapM f = .ok l') : l.mapM h = .ok l' := by
  induction l generalizing l' with
  | nil => exact success
  | cons x l ih =>
    rw [List.mapM_cons] at success ⊢
    obtain ⟨y, head, success⟩ := Except.bind_eq_ok success
    obtain ⟨ys, tail, success⟩ := Except.bind_eq_ok success
    rw [each x y head, Except.ok_bind, ih tail]
    exact success

/-- Steps succeed one after the other exactly if each of them succeeds. -/
theorem Except.mapM_eq_ok_iff : (∃ l', l.mapM f = .ok l') ↔ ∀ x ∈ l, ∃ y, f x = .ok y := by
  constructor
  · rintro ⟨l', success⟩ x member
    obtain ⟨y, -, here⟩ := Except.exists_of_mapM success x member
    exact ⟨y, here⟩
  · intro each
    induction l with
    | nil => exact ⟨[], rfl⟩
    | cons x l ih =>
      obtain ⟨y, here⟩ := each x List.mem_cons_self
      obtain ⟨ys, rest⟩ := ih fun x' member => each x' (List.mem_cons_of_mem _ member)
      exact ⟨y :: ys, by rw [List.mapM_cons, here, Except.ok_bind, rest]; rfl⟩

theorem Except.mapM_eq_ok_map {h : α → β} (each : ∀ x ∈ l, f x = .ok (h x)) :
    l.mapM f = .ok (l.map h) := by
  induction l with
  | nil => rfl
  | cons x l ih =>
    obtain ⟨here, others⟩ := List.forall_mem_cons.mp each
    rw [List.mapM_cons, here, Except.ok_bind, ih others]
    rfl

end Each

theorem Value.asReference_eq_ok {v : Value} {t : String} (success : v.asReference = .ok t) :
    v = .text t := by
  unfold asReference at success
  split at success <;> cases success
  rfl

theorem Value.asName_eq_ok {v : Value} {t : String} (success : v.asName = .ok t) : v = .text t := by
  unfold asName at success
  split at success <;> cases success
  rfl

theorem Value.asRoute_eq_ok {v : Value} {t : String} (success : v.asRoute = .ok t) :
    v = .text t := by
  unfold asRoute at success
  split at success <;> cases success
  rfl

namespace Graph

variable {g : Graph} {v : Value}

theorem eq_of_view_mapping {id : NodeId} {es : Entries} (view : g.view v = .mapping id es) :
    v = .node id := by
  cases v with
  | scalar s => cases view
  | node id' =>
    simp only [Graph.view] at view
    split at view <;> cases view
    rfl

theorem eq_text_of_view {s : String} (view : g.view v = .scalar (.text s)) : v = .text s := by
  cases v with
  | scalar s' => exact congrArg Value.scalar (View.scalar.inj view)
  | node id =>
    simp only [Graph.view] at view
    split at view <;> cases view

theorem view_of_entries? {es : Entries} (entries : g.entries? v = some es) :
    ∃ id, v = .node id ∧ g.view v = .mapping id es := by
  unfold entries? at entries
  split at entries
  · next id es' view =>
    cases entries
    exact ⟨id, eq_of_view_mapping view, view⟩
  · cases entries

theorem entries_eq_ok {es : Entries} (success : g.entries v = .ok es) : g.entries? v = some es := by
  unfold entries at success
  split at success <;> cases success
  assumption

theorem elements_eq_ok {vs : List Value} (success : g.elements v = .ok vs) :
    g.elements? v = some vs := by
  unfold elements at success
  split at success <;> cases success
  assumption

/-- What is left out has no elements. -/
theorem elements?_of_optionalElements {vs : List Value}
    (success : g.optionalElements v = .ok vs) : vs = [] ∨ g.elements? v = some vs := by
  unfold optionalElements at success
  split at success
  · exact .inr (elements_eq_ok success)
  · cases success
    exact .inl rfl

/-- The entries of a mapping; none of any other value. -/
def fields (g : Graph) (v : Value) : Entries := (g.entries? v).getD []

theorem fields_of_entries? {es : Entries} (entries : g.entries? v = some es) : g.fields v = es := by
  rw [fields, entries, Option.getD_some]

/-- What is no mapping has no entries. -/
theorem fields_of_other (other : g.entries? v = none) : g.fields v = [] := by
  rw [fields, other, Option.getD_none]

theorem entries?_eq_none_iff : g.entries? v = none ↔ g.isMapping v = false := by
  rw [isMapping, Option.isSome_eq_false_iff, Option.isNone_iff_eq_none]

theorem entries?_of_field (name : String) (given : (g.fields v).field name ≠ .null) :
    g.entries? v = some (g.fields v) := by
  cases entries : g.entries? v with
  | none =>
    rw [fields_of_other entries] at given
    exact absurd rfl given
  | some es => rw [fields_of_entries? entries]

theorem fields_of_entries {es : Entries} (success : g.entries v = .ok es) : g.fields v = es :=
  fields_of_entries? (entries_eq_ok success)

theorem field_fields (g : Graph) (v : Value) (name : String) :
    (g.fields v).field name = ((g.entries? v).map fun es => es.field name).getD .null := by
  unfold fields
  cases g.entries? v <;> rfl

theorem fields_of_not_truthy (empty : g.truthy v = false) : g.fields v = [] := by
  unfold fields entries?
  unfold truthy at empty
  cases view : g.view v <;> simp_all

theorem fields_of_optionalEntries {es : Entries} (success : g.optionalEntries v = .ok es) :
    g.fields v = es := by
  unfold optionalEntries at success
  split at success
  · exact fields_of_entries success
  · next empty =>
    cases success
    exact fields_of_not_truthy (by simpa using empty)

theorem entries_eq (g : Graph) (v : Value) :
    g.entries v = if g.isMapping v then .ok (g.fields v) else malformed .notMapping := by
  unfold entries isMapping fields
  cases g.entries? v <;> rfl

theorem isMapping_of_entries {es : Entries} (success : g.entries v = .ok es) :
    g.isMapping v = true := by
  rw [isMapping, entries_eq_ok success, Option.isSome_some]

theorem entries_of_isMapping (mapping : g.isMapping v = true) : g.entries v = .ok (g.fields v) := by
  rw [entries_eq, if_pos mapping]

/-- A mapping that may be left out has the entries that its value has. -/
theorem optionalEntries_eq (g : Graph) (v : Value) :
    g.optionalEntries v =
      if !g.truthy v || g.isMapping v then .ok (g.fields v) else malformed .notMapping := by
  unfold optionalEntries
  rw [entries_eq]
  cases truthy : g.truthy v with
  | true => simp
  | false => simp [fields_of_not_truthy truthy]

theorem textOf_eq_ok_iff {t : String} :
    g.textOf v = .ok t ↔ g.hasText v = true ∧ t = g.display v := by
  unfold textOf
  split
  · next has => simp [has, eq_comm]
  · next hasNot => exact iff_of_false nofun fun h => hasNot h.1

/-- The elements of a mapping that may be left out are its keys. -/
theorem optionalElements_of_optionalEntries {es : Entries} (listed : g.optionalEntries v = .ok es) :
    g.optionalElements v = .ok (es.map fun e => .scalar e.1) := by
  unfold optionalEntries at listed
  unfold optionalElements
  split at listed
  · next truthy =>
    obtain ⟨id, -, view⟩ := view_of_entries? (entries_eq_ok listed)
    rw [if_pos truthy, elements, elements?, view]
  · next empty =>
    cases listed
    rw [if_neg empty]
    rfl

end Graph

end TypedClient
