import TypedClient.Proofs.Schema.Resolution

/-!
# Schemas that have outlines

A schema that resolves has an outline: nothing is resolved without having been read. The proof
goes down the same path as resolving does, on which no mapping is entered twice.
-/
namespace TypedClient

theorem Graph.elements?_ne_nil {g : Graph} {v : Value} (stated : g.truthy v = true) :
    g.elements? v ≠ some [] := by
  intro none
  unfold truthy at stated
  unfold elements? at none
  cases view : g.view v with
  | list id items => simp_all
  | mapping id entries => simp_all
  | pair id first second => simp [view] at none
  | set id members => simp_all
  | scalar s =>
    cases s with
    | text s =>
      simp only [view, Option.some.injEq, List.map_eq_nil_iff] at none
      cases letters : s.toList with
      | nil => simp_all [Scalar.truthy]
      | cons c rest =>
        rw [letters] at none
        cases rest with
        | nil => cases none
        | cons d rest =>
          simp only [Text.letters] at none
          split at none <;> cases none
    | bytes bs => simp_all [Scalar.truthy]
    | _ => simp [view] at none

namespace Schema

/-- Outlines for several schemas, if each has one. -/
theorem exists_outlines {g : Graph} {vs : List Value} (each : ∀ v ∈ vs, ∃ o, HasOutline g v o) :
    ∃ os, vs.length = List.length os ∧ ∀ e ∈ vs.zip os, HasOutline g e.1 e.2 := by
  induction vs with
  | nil => exact ⟨[], rfl, by simp⟩
  | cons v vs ih =>
    obtain ⟨o, outline⟩ := each v (by simp)
    obtain ⟨os, length, outlines⟩ := ih fun w hw => each w (by simp [hw])
    refine ⟨o :: os, by simp [length], ?_⟩
    simpa [outline] using outlines

/-- A schema has an outline if it has a form and the schemas inside this have outlines. -/
theorem HasOutline.of_form {g : Graph} {v : Value} {null : Bool} {f : Form}
    (form : Form.of? g v = some (null, f)) (each : ∀ w ∈ f.inner, ∃ o, HasOutline g w o) :
    ∃ o, HasOutline g v o := by
  obtain ⟨os, length, outlines⟩ := exists_outlines each
  exact ⟨_, .intro form length outlines⟩

section Mapping

variable {g : Graph} {es : Entries} {inner : Value → String → Result Resolved} {p : String}
  {r : Resolved}

theorem composition?_truthy {c : Composition} {members : Value}
    (composed : composition? g es = some (c, members)) : g.truthy members = true := by
  simpa using List.find?_some composed

theorem ofString?_of_ok (success : resolveString g es = .ok r) :
    ∃ o, Form.ofString? g es = some (.leaf o) := by
  unfold resolveString enumeration at success
  unfold Form.ofString?
  split
  · exact ⟨_, rfl⟩
  · next text =>
    rw [if_neg text] at success
    obtain ⟨values, success, -⟩ := Except.bind_eq_ok success
    obtain ⟨values, stated, -⟩ := Except.bind_eq_ok success
    rw [stated]
    simp only
    split
    · exact ⟨_, rfl⟩
    · split <;> exact ⟨_, rfl⟩

theorem ofItems_of_ok (success : resolveArray inner g es p = .ok r) :
    ∀ w ∈ (Form.ofItems g (es.field "items")).inner, ∃ q r, inner w q = .ok r := by
  unfold resolveArray at success
  simp only at success
  split at success
  · cases success
  · next stated =>
    obtain ⟨r, items, -⟩ := Except.bind_eq_ok success
    rw [Form.ofItems, if_neg stated]
    simp only [Form.inner, List.mem_singleton, forall_eq]
    exact ⟨_, _, items⟩

theorem member?_of_ok {required : List Scalar} {properties : Entries} {l : List (String × Resolved)}
    (success : (properties.mapM fun (key, property) => do
      let r ← inner property (p ++ (← key.textOf))
      let name ← (Value.scalar key).asName
      return (memberText (TypeText.propertyKey name) (required.any key.same) r.text, r)) = .ok l) :
    ∃ members, properties.mapM (Form.member? required) = some members ∧
      ∀ m ∈ members, ∃ q r, inner m.type q = .ok r := by
  induction properties generalizing l with
  | nil => exact ⟨[], rfl, by simp⟩
  | cons property properties ih =>
    obtain ⟨key, value⟩ := property
    rw [List.mapM_cons] at success
    obtain ⟨e, head, success⟩ := Except.bind_eq_ok success
    obtain ⟨tail, rest, -⟩ := Except.bind_eq_ok success
    obtain ⟨members, named, each⟩ := ih rest
    obtain ⟨step, -, head⟩ := Except.bind_eq_ok head
    obtain ⟨r, resolves, head⟩ := Except.bind_eq_ok head
    obtain ⟨name, known, -⟩ := Except.bind_eq_ok head
    cases key with
    | text name =>
      refine ⟨⟨name, required.any (Scalar.text name).same, value⟩ :: members, ?_, ?_⟩
      · rw [List.mapM_cons, named]
        rfl
      · simp only [List.mem_cons, forall_eq_or_imp]
        exact ⟨⟨_, _, resolves⟩, each⟩
    | _ => cases known

theorem ofStructure?_of_ok (success : resolveStructure inner g es p = .ok r) :
    ∃ f, Form.ofStructure? g es = some f ∧ ∀ w ∈ f.inner, ∃ q r, inner w q = .ok r := by
  unfold resolveStructure at success
  unfold Form.ofStructure?
  cases composed : composition? g es with
  | some found =>
    obtain ⟨c, members⟩ := found
    simp only [composed] at success ⊢
    obtain ⟨vs, listed, success⟩ := Except.bind_eq_ok success
    obtain ⟨parts, each, -⟩ := Except.bind_eq_ok success
    have some : g.elements? members = some vs := by
      unfold Graph.elements at listed
      split at listed
      · next stated =>
        cases listed
        exact stated
      · cases listed
    cases vs with
    | nil => exact absurd some (Graph.elements?_ne_nil (composition?_truthy composed))
    | cons first rest =>
      simp only [some]
      refine ⟨_, rfl, fun w hw => ?_⟩
      obtain ⟨i, hi, same⟩ := List.getElem_of_mem hw
      obtain ⟨r, -, resolves⟩ := Except.exists_of_mapM each (w, i) (by
        rw [List.mk_mem_zipIdx_iff_getElem?, List.getElem?_eq_some_iff]
        exact ⟨hi, same⟩)
      exact ⟨_, _, resolves⟩
  | none =>
    simp only [composed] at success ⊢
    cases stated : g.entries? (es.field "properties") with
    | some properties =>
      simp only [stated] at success ⊢
      obtain ⟨required, requires, success⟩ := Except.bind_eq_ok success
      obtain ⟨l, members, -⟩ := Except.bind_eq_ok success
      obtain ⟨members, named, each⟩ := member?_of_ok members
      simp only [requires, named]
      refine ⟨_, rfl, fun w hw => ?_⟩
      obtain ⟨m, member, rfl⟩ := List.mem_map.mp hw
      exact each m member
    | none =>
      simp only [stated] at success ⊢
      split at success
      · next empty =>
        rw [if_pos empty]
        exact ⟨_, rfl, by simp [Form.inner]⟩
      · next stated =>
        rw [if_neg stated]
        obtain ⟨r, values, -⟩ := Except.bind_eq_ok success
        refine ⟨_, rfl, ?_⟩
        simp only [Form.inner, List.mem_singleton, forall_eq]
        exact ⟨_, _, values⟩

theorem ofMapping?_of_ok (success : resolveMapping inner g es p = .ok r) :
    ∃ f, Form.ofMapping? g es = some f ∧ ∀ w ∈ f.inner, ∃ q r, inner w q = .ok r := by
  unfold resolveMapping at success
  obtain ⟨kind, known, success⟩ := Except.bind_eq_ok success
  unfold Form.ofMapping?
  rw [known]
  cases kind with
  | number => exact ⟨_, rfl, by simp [Form.inner]⟩
  | boolean => exact ⟨_, rfl, by simp [Form.inner]⟩
  | array =>
    obtain ⟨r, array, -⟩ := Except.bind_eq_ok success
    exact ⟨_, rfl, ofItems_of_ok array⟩
  | string =>
    obtain ⟨r, string, -⟩ := Except.bind_eq_ok success
    obtain ⟨o, string⟩ := ofString?_of_ok string
    exact ⟨_, string, by simp [Form.inner]⟩
  | structural =>
    obtain ⟨r, structural, -⟩ := Except.bind_eq_ok success
    exact ofStructure?_of_ok structural

end Mapping

theorem exists_outline_of_resolveWithin {g : Graph} {active : List NodeId} {v : Value} {p : String}
    {r : Resolved} (success : resolveWithin g active v p = .ok r) : ∃ o, HasOutline g v o := by
  induction rest : g.unvisited active using Nat.strongRecOn generalizing active v p r with
  | ind n ih =>
    cases entries : g.entries? v with
    | none =>
      have form : Form.of? g v = some (false, .leaf .any) := by simp [Form.of?, entries]
      exact HasOutline.of_form form (by simp [Form.inner])
    | some es =>
      cases reference : g.truthy (es.field "$ref") with
      | true =>
        rw [resolveWithin_reference entries reference] at success
        obtain ⟨t, text, -⟩ := Except.bind_eq_ok success
        have form : Form.of? g v = some (false, .leaf (.reference t)) := by
          rw [Value.asReference_eq_ok text] at reference
          simp only [Form.of?, entries, Value.asReference_eq_ok text, reference, if_true]
          rfl
        exact HasOutline.of_form form (by simp [Form.inner])
      | false =>
        obtain ⟨id, rfl, view⟩ := Graph.view_of_entries? entries
        by_cases again : id ∈ active
        · rw [resolveWithin_again entries reference again] at success
          cases success
        · rw [resolveWithin_mapping entries reference again] at success
          obtain ⟨f, mapping, inside⟩ := ofMapping?_of_ok success
          have form : Form.of? g (.node id) = some (g.truthy (es.field "nullable"), f) := by
            simp [Form.of?, entries, reference, mapping]
          refine HasOutline.of_form form fun w hw => ?_
          obtain ⟨q, r, resolves⟩ := inside w hw
          have less := Graph.unvisited_cons_lt (Graph.lt_size_of_view_mapping view) again
          exact ih _ (rest ▸ less) resolves rfl

/-- A schema that resolves has an outline, and the type of this is what it resolves to. -/
theorem exists_outline_of_resolve {g : Graph} {v : Value} {p : String} {r : Resolved}
    (success : resolve g v p = .ok r) : ∃ o, HasOutline g v o ∧ o.result p = .ok r := by
  obtain ⟨o, outline⟩ := exists_outline_of_resolveWithin success
  exact ⟨o, outline, by rw [← outline.resolve_eq_result, success]⟩

end Schema

end TypedClient
