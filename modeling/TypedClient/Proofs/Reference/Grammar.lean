import TypedClient.Reference

/-!
# Texts of references

The texts that refer to a component are exactly those that are put together from the root, the key
of a namespace, a slash and a name that is not empty and holds no slash.
-/
namespace TypedClient

theorem Text.cutFirst_eq_some_iff {c : Char} {text before after : List Char} :
    cutFirst c text = some (before, after) ↔ text = before ++ c :: after ∧ c ∉ before := by
  induction text generalizing before with
  | nil => simp [cutFirst]
  | cons d rest ih =>
    by_cases here : d = c
    · subst here
      simp only [cutFirst, if_true, Option.some.injEq, Prod.mk.injEq]
      constructor
      · rintro ⟨rfl, rfl⟩
        simp
      · rintro ⟨same, first⟩
        cases before with
        | nil => simpa using same
        | cons e before =>
          simp only [List.cons_append, List.cons.injEq] at same
          simp [same.1] at first
    · simp only [cutFirst, here, if_false, Option.map_eq_some_iff, Prod.mk.injEq, Prod.exists]
      constructor
      · rintro ⟨b, a, cut, rfl, rfl⟩
        obtain ⟨rfl, first⟩ := ih.mp cut
        exact ⟨rfl, by simp [first, Ne.symm here]⟩
      · rintro ⟨same, first⟩
        cases before with
        | nil =>
          simp only [List.nil_append, List.cons.injEq] at same
          exact absurd same.1 here
        | cons e before =>
          simp only [List.cons_append, List.cons.injEq] at same
          obtain ⟨rfl, rfl⟩ := same
          exact ⟨before, after, ih.mpr ⟨rfl, fun h => first (by simp [h])⟩, rfl, rfl⟩

theorem Namespace.ofKey?_key (ns : Namespace) : ofKey? ns.key = some ns := by
  cases ns <;> decide

theorem Namespace.ofKey?_eq_some_iff {key : String} {ns : Namespace} :
    ofKey? key = some ns ↔ key = ns.key := by
  constructor
  · intro found
    simpa [eq_comm] using List.find?_some found
  · rintro rfl
    exact ofKey?_key ns

theorem Namespace.slash_not_mem_key (ns : Namespace) : '/' ∉ ns.key.toList := by
  cases ns <;> decide

/-- The text that refers to a component. -/
def Reference.text (r : Reference) : String :=
  root ++ r.namespace_.key ++ "/" ++ r.name

/-- A text refers to a component exactly if it is the text of a reference whose name is not empty
and holds no slash. -/
theorem Reference.parse?_eq_some_iff {text : String} {r : Reference} :
    parse? text = some r ↔ text = r.text ∧ r.name ≠ "" ∧ '/' ∉ r.name.toList := by
  simp only [parse?, Option.bind_eq_bind, Option.bind_eq_some_iff, Prod.exists,
    Text.dropStart?_eq_some_iff, Text.cutFirst_eq_some_iff, Namespace.ofKey?_eq_some_iff]
  constructor
  · rintro ⟨rest, whole, key, name, ⟨rfl, -⟩, ns, known, parsed⟩
    split at parsed
    · cases parsed
    · next fine =>
      cases parsed
      rw [not_or] at fine
      refine ⟨?_, ?_, ?_⟩
      · apply String.toList_injective
        simp [whole, Reference.text, ← known]
      · simpa [← String.toList_inj] using fine.1
      · simpa using fine.2
  · rintro ⟨rfl, named, noSlash⟩
    refine ⟨r.namespace_.key.toList ++ '/' :: r.name.toList, by simp [Reference.text],
      r.namespace_.key.toList, r.name.toList, ⟨rfl, r.namespace_.slash_not_mem_key⟩,
      r.namespace_, String.ofList_toList, ?_⟩
    have fine : ¬(r.name.toList = [] ∨ '/' ∈ r.name.toList) := by
      rintro (empty | slash)
      · exact named (String.toList_inj.mp empty)
      · exact noSlash slash
    rw [if_neg fine, String.ofList_toList]

end TypedClient
