import TypedClient.Proofs.Failure.Success
import TypedClient.Report

/-!
# Documents that can be linted

Linting asks of a document that it is a mapping with routes, or without any, and goes on route by
route: it succeeds exactly if it does so for each of them. An operation is linted if its route is a
text and its responses, where it has any, can be walked over and have codes with a text.
-/
namespace TypedClient.Report

variable {g : Graph} {document : Value} {verbs : List String}

theorem lint_eq_ok_iff : (∃ issues, lint g verbs document = .ok issues) ↔
    g.isMapping document = true ∧
      (g.truthy ((g.fields document).field "paths") = false ∨
        g.isMapping ((g.fields document).field "paths") = true) ∧
      ∀ e ∈ g.fields ((g.fields document).field "paths"),
        ∃ issues, lintRoute g verbs e.1 e.2 = .ok issues := by
  rw [← Except.mapM_eq_ok_iff]
  unfold lint
  rw [Graph.entries_eq]
  by_cases mapping : g.isMapping document = true
  · rw [if_pos mapping, Except.ok_bind, Graph.optionalEntries_eq]
    by_cases listed : (!g.truthy ((g.fields document).field "paths") ||
        g.isMapping ((g.fields document).field "paths")) = true
    · rw [if_pos listed, Except.ok_bind]
      have stated : g.truthy ((g.fields document).field "paths") = false ∨
          g.isMapping ((g.fields document).field "paths") = true := by
        simpa using listed
      refine ⟨fun ⟨issues, success⟩ => ?_, fun ⟨_, _, issues, success⟩ => ?_⟩
      · obtain ⟨each, success, -⟩ := Except.bind_eq_ok success
        exact ⟨mapping, stated, each, success⟩
      · exact ⟨issues.flatten, by rw [success]; rfl⟩
    · rw [if_neg listed]
      refine ⟨nofun, fun ⟨_, stated, _⟩ => ?_⟩
      exact absurd (by simpa using stated) listed
  · rw [if_neg mapping]
    exact ⟨nofun, fun ⟨stated, _⟩ => absurd stated mapping⟩

theorem hasSuccess_of_texts {codes : List Value}
    (texts : ∀ code ∈ codes, ∃ t, g.textOf code = .ok t) : ∃ b, hasSuccess g codes = .ok b := by
  induction codes with
  | nil => exact ⟨false, rfl⟩
  | cons code rest ih =>
    obtain ⟨t, text⟩ := texts code List.mem_cons_self
    obtain ⟨b, following⟩ := ih fun c member => texts c (List.mem_cons_of_mem _ member)
    unfold hasSuccess isSuccess
    rw [text, Except.ok_bind]
    by_cases here : t.toList.head? = some '2'
    · exact ⟨true, by simp [here]; rfl⟩
    · exact ⟨b, by simp [here, following]⟩

/-- Codes with a text report success if one of the texts begins so. -/
theorem hasSuccess_of_entries {es : Entries} (texts : ∀ e ∈ es, e.1.hasText = true) :
    hasSuccess g (es.map fun e => .scalar e.1) =
      .ok (es.any fun e => e.1.display.toList.head? = some '2') := by
  induction es with
  | nil => rfl
  | cons e es ih =>
    obtain ⟨here, others⟩ := List.forall_mem_cons.mp texts
    have text : g.textOf (.scalar e.1) = .ok e.1.display := if_pos here
    rw [List.map_cons, hasSuccess, isSuccess, text, Except.ok_bind, List.any_cons, ih others]
    by_cases success : e.1.display.toList.head? = some '2'
    · simp [success]
      rfl
    · simp [success]

theorem lintOperation_of_responses {route : Scalar} {verb t : String} {operation : Value}
    {codes : List Value} (named : (Value.scalar route).asRoute = .ok t)
    (listed : g.optionalElements ((g.fields operation).field "responses") = .ok codes)
    (texts : ∀ code ∈ codes, ∃ t, g.textOf code = .ok t) :
    ∃ issues, lintOperation g route verb operation = .ok issues := by
  unfold lintOperation
  cases entries : g.entries? operation with
  | none => exact ⟨[], rfl⟩
  | some es =>
    rw [Graph.fields_of_entries? entries] at listed
    obtain ⟨b, succeeds⟩ := hasSuccess_of_texts texts
    simp only [named, listed, succeeds, Except.ok_bind]
    exact ⟨_, rfl⟩

theorem lintRoute_of_operations {route : Scalar} {item : Value}
    (each : ∀ verb ∈ verbs, g.isMapping ((g.fields item).field verb) = true →
      ∃ issues, lintOperation g route verb ((g.fields item).field verb) = .ok issues) :
    ∃ issues, lintRoute g verbs route item = .ok issues := by
  unfold lintRoute
  cases entries : g.entries? item with
  | none => exact ⟨[], rfl⟩
  | some es =>
    rw [Graph.fields_of_entries? entries] at each
    obtain ⟨issues, success⟩ : ∃ issues,
        (verbs.mapM fun verb => lintOperation g route verb (es.field verb)) = .ok issues := by
      refine Except.mapM_eq_ok_iff.mpr fun verb member => ?_
      by_cases mapping : g.isMapping (es.field verb) = true
      · exact each verb member mapping
      · rw [Bool.not_eq_true, ← Graph.entries?_eq_none_iff] at mapping
        exact ⟨[], by rw [lintOperation, mapping]⟩
    exact ⟨issues.flatten, by simp only [success, Except.ok_bind]; rfl⟩

end TypedClient.Report
