import TypedClient.Failure

/-!
# What stops a run

A run of steps is stopped by what stops one of them. So a kind of stop that no step has is none of
the run either.
-/
namespace TypedClient

/-- Whatever stops the run is of this kind. -/
def StopsBy (p : Stop → Prop) {α : Type} (r : Result α) : Prop := ∀ s, r = .error s → p s

namespace StopsBy

variable {p : Stop → Prop} {α β : Type}

theorem ok (a : α) : StopsBy p (.ok a : Result α) := nofun

theorem stop {s : Stop} (kind : p s) : StopsBy p (.error s : Result α) := by
  rintro _ ⟨⟩
  exact kind

theorem bind {step : Result α} {next : α → Result β} (first : StopsBy p step)
    (rest : ∀ a, step = .ok a → StopsBy p (next a)) : StopsBy p (step >>= next) := by
  cases step with
  | error s => exact .stop (first s rfl)
  | ok a => exact rest a rfl

theorem map {step : Result α} (first : StopsBy p step) (f : α → β) : StopsBy p (step.map f) := by
  cases step with
  | error s => exact .stop (first s rfl)
  | ok a => exact .ok _

theorem mapM {f : α → Result β} {l : List α} (each : ∀ x ∈ l, StopsBy p (f x)) :
    StopsBy p (l.mapM f) := by
  induction l with
  | nil => exact .ok []
  | cons x l ih =>
    rw [List.mapM_cons]
    refine .bind (each x List.mem_cons_self) fun _ _ => ?_
    exact .bind (ih fun y member => each y (List.mem_cons_of_mem _ member)) fun _ _ => .ok _

/-- What stops a step and what follows it stops the step, or what follows where the step succeeds. -/
theorem of_bind {step : Result α} {next : α → Result β} {s : Stop}
    (stopped : (step >>= next) = .error s) :
    step = .error s ∨ ∃ a, step = .ok a ∧ next a = .error s := by
  cases step with
  | error s' =>
    cases stopped
    exact .inl rfl
  | ok a => exact .inr ⟨a, rfl, stopped⟩

/-- What stops the steps for a list stops the step for one element, behind those that succeed. -/
theorem of_mapM {f : α → Result β} {l : List α} {s : Stop} (stopped : l.mapM f = .error s) :
    ∃ before x after, l = before ++ x :: after ∧ (∀ y ∈ before, ∃ z, f y = .ok z) ∧
      f x = .error s := by
  induction l with
  | nil => cases stopped
  | cons x l ih =>
    rw [List.mapM_cons] at stopped
    rcases of_bind stopped with here | ⟨y, here, stopped⟩
    · exact ⟨[], x, l, rfl, nofun, here⟩
    rcases of_bind stopped with rest | ⟨ys, -, finished⟩
    · obtain ⟨before, x', after, rfl, succeed, there⟩ := ih rest
      exact ⟨x :: before, x', after, rfl, List.forall_mem_cons.mpr ⟨⟨y, here⟩, succeed⟩, there⟩
    · cases finished

/-! ### Steps that only a malformed document stops -/

section Malformed

variable (malformed : ∀ m, p (.malformed m))

include malformed

theorem entries (g : Graph) (v : Value) : StopsBy p (g.entries v) := by
  unfold Graph.entries
  split
  · exact .ok _
  · exact .stop (malformed _)

theorem optionalEntries (g : Graph) (v : Value) : StopsBy p (g.optionalEntries v) := by
  unfold Graph.optionalEntries
  split
  · exact entries malformed g v
  · exact .ok _

theorem elements (g : Graph) (v : Value) : StopsBy p (g.elements v) := by
  unfold Graph.elements
  split
  · exact .ok _
  · exact .stop (malformed _)

theorem optionalElements (g : Graph) (v : Value) : StopsBy p (g.optionalElements v) := by
  unfold Graph.optionalElements
  split
  · exact elements malformed g v
  · exact .ok _

theorem comparables (g : Graph) (vs : List Value) : StopsBy p (g.comparables vs) := by
  induction vs with
  | nil => exact .ok []
  | cons v vs ih =>
    unfold Graph.comparables
    split
    · exact ih.map _
    · exact ih
    · exact .stop (malformed _)

theorem textOf (g : Graph) (v : Value) : StopsBy p (g.textOf v) := by
  unfold Graph.textOf
  split
  · exact .ok _
  · exact .stop (malformed _)

theorem scalarTextOf (s : Scalar) : StopsBy p s.textOf := by
  unfold Scalar.textOf
  split
  · exact .ok _
  · exact .stop (malformed _)

theorem asName (v : Value) : StopsBy p v.asName := by
  unfold Value.asName
  split
  · exact .ok _
  · exact .stop (malformed _)

theorem asReference (v : Value) : StopsBy p v.asReference := by
  unfold Value.asReference
  split
  · exact .ok _
  · exact .stop (malformed _)
  · exact .stop (malformed _)

theorem asRoute (v : Value) : StopsBy p v.asRoute := by
  unfold Value.asRoute
  split
  · exact .ok _
  · exact .stop (malformed _)
  · exact .stop (malformed _)
  · exact .stop (malformed _)
  · exact .stop (malformed _)

end Malformed

end StopsBy

end TypedClient
