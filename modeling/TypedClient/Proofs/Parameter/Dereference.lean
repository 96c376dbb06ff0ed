import TypedClient.Proofs.Failure.Success
import TypedClient.Proofs.Reference.Grammar
import TypedClient.Parameter

/-!
# What the entries of parameter lists stand for

An entry of a list of parameters is a parameter itself or refers to a component. It is declared by
what it stands for: under the texts of the name and of the place that are stated there.
-/
namespace TypedClient

namespace Declaration

variable {g : Graph} {components v w : Value} {p : String}

/-- The value is a reference to the component parameter, which is a mapping. -/
structure RefersTo (g : Graph) (components v w : Value) : Prop where
  text : ∃ name, name ≠ "" ∧ '/' ∉ name.toList ∧
    (g.fields v).field "$ref" = .text ("#/components/parameters/" ++ name) ∧
    (g.fields ((g.fields components).field "parameters")).field name = w
  mapping : g.isMapping w = true

/-- What an entry of a list of parameters stands for: itself, or the component that it refers to. -/
inductive StandsFor (g : Graph) (components : Value) : Value → Value → Prop
  | itself {v : Value} (inline : Schema.isReference g v = false) (mapping : g.isMapping v = true) :
    StandsFor g components v v
  | component {v w : Value} (refers : RefersTo g components v w) : StandsFor g components v w

/-- The parameter has a name and a place that can be written. -/
def HasKey (g : Graph) (w : Value) : Prop :=
  g.hasText ((g.fields w).field "name") = true ∧ g.hasText ((g.fields w).field "in") = true

instance (g : Graph) (w : Value) : Decidable (HasKey g w) := inferInstanceAs (Decidable (_ ∧ _))

/-- The declaration is that of a parameter: its key are the texts of the name and the place that the
parameter states. -/
structure Declares (g : Graph) (w : Value) (d : Declaration) : Prop where
  value : d.value = w
  fields : g.entries? w = some d.fields
  hasKey : HasKey g w
  name : d.name = g.display ((g.fields w).field "name")
  place : d.place = g.display ((g.fields w).field "in")

/-! ### References -/

theorem isReference_eq (g : Graph) (v : Value) :
    Schema.isReference g v = g.truthy ((g.fields v).field "$ref") := by
  unfold Schema.isReference Graph.fields
  cases g.entries? v <;> rfl

theorem RefersTo.isReference (refers : RefersTo g components v w) :
    Schema.isReference g v = true := by
  obtain ⟨name, -, -, stated, -⟩ := refers.text
  rw [isReference_eq, stated]
  simp [Graph.truthy, Value.text, Scalar.truthy]

/-- The component of a name is found if it is a mapping. -/
theorem component?_eq {name : String}
    (mapping : g.isMapping ((g.fields ((g.fields components).field "parameters")).field name) = true) :
    component? g components name =
      .ok (some ((g.fields ((g.fields components).field "parameters")).field name)) := by
  have inside : ∀ (u : Value) (key : String), (g.fields u).field key ≠ .null →
      g.optionalEntries u = .ok (g.fields u) := by
    intro u key given
    have entries := Graph.entries?_of_field key given
    rw [Graph.optionalEntries_eq, if_pos]
    simp [Graph.isMapping, entries]
  have found : (g.fields ((g.fields components).field "parameters")).field name ≠ .null := by
    intro null
    rw [null] at mapping
    cases mapping
  have listed : (g.fields components).field "parameters" ≠ .null := by
    intro null
    rw [null] at found
    exact found rfl
  unfold component?
  rw [inside components "parameters" listed, Except.ok_bind]
  change (g.optionalEntries ((g.fields components).field "parameters") >>= _) = _
  rw [inside _ name found, Except.ok_bind]
  simp only [mapping, if_true]
  rfl

/-- Where a component is found it is the mapping of that name. -/
theorem component?_eq_some {name : String} (success : component? g components name = .ok (some w)) :
    (g.fields ((g.fields components).field "parameters")).field name = w ∧
      g.isMapping w = true := by
  obtain ⟨sections, top, success⟩ := Except.bind_eq_ok success
  obtain ⟨parameters, listed, success⟩ := Except.bind_eq_ok success
  obtain rfl := Graph.fields_of_optionalEntries top
  obtain rfl := Graph.fields_of_optionalEntries listed
  simp only at success
  split at success
  · next mapping =>
    cases success
    exact ⟨rfl, mapping⟩
  · cases success

theorem RefersTo.dereference_eq (refers : RefersTo g components v w) (p : String) :
    dereference g components p v = .ok w := by
  obtain ⟨name, named, noSlash, stated, found⟩ := refers.text
  have given : (g.fields v).field "$ref" ≠ .null := by
    rw [stated]
    nofun
  have entries : g.entries v = .ok (g.fields v) := by
    rw [Graph.entries, Graph.entries?_of_field "$ref" given]
  have parsed : Reference.parse? ("#/components/parameters/" ++ name) = some ⟨.parameters, name⟩ :=
    Reference.parse?_eq_some_iff.mpr ⟨rfl, named, noSlash⟩
  have component : component? g components name = .ok (some w) := by
    rw [component?_eq (found ▸ refers.mapping), found]
  unfold dereference
  rw [refers.isReference, entries, Except.ok_bind, stated]
  change (Schema.component ("#/components/parameters/" ++ name) (some p) >>= _) = _
  rw [Schema.component, parsed]
  simp only [Except.ok_bind, component]
  rfl

/-- An entry is followed to itself or to the component that it refers to, and no further. -/
theorem dereference_eq_ok_iff : dereference g components p v = .ok w ↔
    (Schema.isReference g v = false ∧ w = v) ∨ RefersTo g components v w := by
  constructor
  · intro success
    unfold dereference at success
    cases reference : Schema.isReference g v with
    | false =>
      rw [reference] at success
      cases success
      exact .inl ⟨rfl, rfl⟩
    | true =>
      rw [reference] at success
      obtain ⟨es, entries, success⟩ := Except.bind_eq_ok success
      obtain ⟨t, stated, success⟩ := Except.bind_eq_ok success
      obtain ⟨r, parsed, success⟩ := Except.bind_eq_ok success
      rw [← Graph.fields_of_entries entries] at stated
      split at success
      · cases success
      · next parameter =>
        obtain ⟨found?, found, success⟩ := Except.bind_eq_ok success
        cases found? with
        | none => cases success
        | some w' =>
          cases success
          obtain ⟨here, mapping⟩ := component?_eq_some found
          unfold Schema.component at parsed
          split at parsed
          · next r' known =>
            cases parsed
            obtain ⟨rfl, named, noSlash⟩ := Reference.parse?_eq_some_iff.mp known
            refine .inr ⟨⟨r.name, named, noSlash, ?_, here⟩, mapping⟩
            rw [Value.asReference_eq_ok stated, Reference.text, Decidable.not_not.mp parameter]
            rfl
          · cases parsed
  · rintro (⟨inline, rfl⟩ | refers)
    · unfold dereference
      rw [inline]
      rfl
    · exact refers.dereference_eq p

/-- A reference refers to one component at most. -/
theorem RefersTo.unique {w' : Value} (refers : RefersTo g components v w)
    (refers' : RefersTo g components v w') : w' = w :=
  Except.ok.inj ((refers'.dereference_eq "").symm.trans (refers.dereference_eq ""))

/-! ### Entries -/

theorem StandsFor.isMapping (stands : StandsFor g components v w) : g.isMapping w = true := by
  cases stands with
  | itself inline mapping => exact mapping
  | component refers => exact refers.mapping

theorem StandsFor.dereference_eq (stands : StandsFor g components v w) (p : String) :
    dereference g components p v = .ok w := by
  cases stands with
  | itself inline mapping => exact dereference_eq_ok_iff.mpr (.inl ⟨inline, rfl⟩)
  | component refers => exact refers.dereference_eq p

/-- An entry is declared as the declaration of what it stands for. -/
theorem ofValue_eq_ok_iff {d : Declaration} : ofValue g components p v = .ok d ↔
    ∃ w, StandsFor g components v w ∧ Declares g w d := by
  constructor
  · intro success
    obtain ⟨w, followed, success⟩ := Except.bind_eq_ok success
    obtain ⟨es, entries, success⟩ := Except.bind_eq_ok success
    obtain ⟨name, named, success⟩ := Except.bind_eq_ok success
    obtain ⟨place, placed, success⟩ := Except.bind_eq_ok success
    cases success
    have mapping := Graph.isMapping_of_entries entries
    have stands : StandsFor g components v w := by
      rcases dereference_eq_ok_iff.mp followed with ⟨inline, rfl⟩ | refers
      · exact .itself inline mapping
      · exact .component refers
    obtain ⟨hasName, rfl⟩ := Graph.textOf_eq_ok_iff.mp named
    obtain ⟨hasPlace, rfl⟩ := Graph.textOf_eq_ok_iff.mp placed
    obtain rfl := Graph.fields_of_entries entries
    exact ⟨w, stands, rfl, Graph.entries_eq_ok entries, ⟨hasName, hasPlace⟩, rfl, rfl⟩
  · rintro ⟨w, stands, declares⟩
    obtain ⟨name, place, fields, value⟩ := d
    obtain ⟨rfl, entries, hasKey, named, placed⟩ := declares
    simp only at entries named placed
    rw [HasKey, Graph.fields_of_entries? entries] at hasKey
    rw [Graph.fields_of_entries? entries] at named placed
    unfold ofValue Graph.entries
    rw [stands.dereference_eq, Except.ok_bind, entries, Except.ok_bind,
      Graph.textOf_eq_ok_iff.mpr ⟨hasKey.1, named⟩, Except.ok_bind,
      Graph.textOf_eq_ok_iff.mpr ⟨hasKey.2, placed⟩]
    rfl

/-- An entry that stands for a parameter without a key is not declared. -/
theorem ofValue_of_not_hasKey (stands : StandsFor g components v w) (unnamed : ¬HasKey g w)
    (p : String) : ofValue g components p v = malformed .numberTooLong := by
  have entries : g.entries w = .ok (g.fields w) :=
    (Graph.entries_eq g w).trans (if_pos stands.isMapping)
  unfold ofValue Graph.textOf
  rw [stands.dereference_eq, Except.ok_bind, entries, Except.ok_bind]
  by_cases named : g.hasText ((g.fields w).field "name") = true
  · rw [if_pos named, Except.ok_bind, if_neg fun placed => unnamed ⟨named, placed⟩]
    rfl
  · rw [if_neg named]
    rfl

/-- The declaration of a parameter that has a key. -/
theorem exists_declares (mapping : g.isMapping w = true) (named : HasKey g w) :
    ∃ d, Declares g w d := by
  refine ⟨⟨_, _, g.fields w, w⟩, rfl, ?_, named, rfl, rfl⟩
  obtain ⟨es, entries⟩ := Option.isSome_iff_exists.mp mapping
  rw [entries, Graph.fields_of_entries? entries]

end Declaration

end TypedClient
