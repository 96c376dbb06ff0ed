import TypedClient.Model
import TypedClient.Proofs.Payload.Union
import TypedClient.Proofs.Schema.Existence

/-!
# Interfaces and aliases

A model is declared as an interface only where its type is a single record. The decision is taken by
a scan of the text of the type, so the statements here rest on what such a scan finds out. Unions
joined from the types of several responses or bodies are never mistaken for a record.
-/
namespace TypedClient

open Schema (HasOutline Outline)

namespace Model

/-- Declared as an interface rather than as an alias. -/
def IsInterface (m : Model) : Prop := ∃ name type, m.declaration = interfaceText name type

theorem interfaceText_ne (name type rest name' type' : String) :
    aliasText name type ++ rest ≠ interfaceText name' type' := by
  intro same
  have starts := congrArg (fun s => s.toList.take 8) same
  unfold aliasText interfaceText emptyInterfaceComment at starts
  split at starts <;> simp [String.toList_append] at starts

theorem isInterface_ofText_iff (name type : String) (imports : List String) :
    (ofText name type imports).IsInterface ↔ TypeText.isRecord type = true := by
  unfold ofText
  constructor
  · rintro ⟨name', type', same⟩
    by_cases record : TypeText.isRecord type = true
    · exact record
    · simp only [if_neg record] at same
      exact absurd (by rw [String.append_empty]; exact same)
        (interfaceText_ne name _ "" name' type')
  · intro record
    exact ⟨name, type, by simp only [if_pos record]⟩

theorem isRecord_of_isInterface {g : Graph} {name : String} {v : Value} {m : Model}
    (success : ofSchema g name v = .ok m) (interface : m.IsInterface) :
    ∃ p r, Schema.resolve g v p = .ok r ∧ TypeText.isRecord r.text = true := by
  unfold ofSchema at success
  obtain ⟨r, resolves, success⟩ := Except.bind_eq_ok success
  refine ⟨_, r, resolves, ?_⟩
  obtain ⟨name', type', same⟩ := interface
  split at success
  · next record =>
    simp only [Bool.and_eq_true] at record
    exact record.2
  · split at success
    · obtain rfl := Except.ok.inj success
      rw [String.append_assoc] at same
      exact absurd same (interfaceText_ne _ _ _ name' type')
    · obtain rfl := Except.ok.inj success
      exact absurd (by rw [String.append_empty]; exact same)
        (interfaceText_ne _ r.text "" name' type')

end Model

/-! ### Types of several items -/

theorem balanced_of_resolve {g : Graph} {v : Value} {p : String} {r : Resolved}
    (success : Schema.resolve g v p = .ok r) : TypeText.Balanced r.text.toList := by
  obtain ⟨o, -, result⟩ := Schema.exists_outline_of_resolve success
  rw [Outline.text_of_result result]
  exact o.balanced_text

theorem Contribution.balanced {g : Graph} {p : String} {item : Value} {c : Contribution}
    (success : ofItem? g p item = .ok (some c)) : TypeText.Balanced c.text.toList := by
  unfold ofItem? at success
  split at success
  · cases success
  · obtain ⟨es, -, success⟩ := Except.bind_eq_ok success
    split at success
    · obtain ⟨r, reference, success⟩ := Except.bind_eq_ok success
      cases success
      obtain ⟨t, -, reference⟩ := Except.bind_eq_ok reference
      obtain ⟨component, -, reference⟩ := Except.bind_eq_ok reference
      obtain rfl := Except.ok.inj reference
      exact TypeText.balanced_typeName component
    · obtain ⟨content, -, success⟩ := Except.bind_eq_ok success
      obtain ⟨c, content, success⟩ := Except.bind_eq_ok success
      cases success
      have unknown : TypeText.Balanced Contribution.unknown.text.toList :=
        TypeText.balanced_ordinary (by decide)
      unfold ofContent at content
      split at content
      · cases content
        exact unknown
      · simp only at content
        split at content
        · cases content
          exact unknown
        · obtain ⟨r, resolves, content⟩ := Except.bind_eq_ok content
          cases content
          exact balanced_of_resolve resolves

namespace Payload

theorem balanced_values {g : Graph} {items : List (String × Value)} {payload : Payload}
    (success : ofItems g items = .ok payload) : ∀ t ∈ payload.values, TypeText.Balanced t.toList := by
  obtain ⟨cs, rfl, members⟩ := exists_contributions success
  intro t ht
  obtain ⟨c, hc, rfl⟩ := mem_values_ofContributions.mp ht
  obtain ⟨item, -, here⟩ := (members c).mp hc
  exact Contribution.balanced here

/-- The joined types of several items are a record only if there is a single type, which is one. -/
theorem isRecord_text_iff {payload : Payload}
    (balanced : ∀ t ∈ payload.values, TypeText.Balanced t.toList) :
    TypeText.isRecord payload.text = true ↔
      ∃ t, payload.values = [t] ∧ TypeText.isRecord t = true := by
  unfold text
  cases values : payload.values with
  | nil =>
    have none : TypeText.isRecord (Text.joinWith " | " []) = false := by decide
    simp [none]
  | cons t rest =>
    cases rest with
    | nil => simp [Text.joinWith]
    | cons u rest =>
      have first := balanced t (by simp [values])
      have compound : TypeText.isCompound (Text.joinWith " | " (t :: u :: rest)) = true :=
        Outline.isCompound_joinWith (c := .oneOf) first
      simp [TypeText.isRecord_of_isCompound compound]

end Payload

namespace Schema

/-- A scan of the type that a schema resolves to ends outside of literals and brackets and never
leaves the top upwards. It is taken for a union or an intersection exactly if it is one at the top,
and for one record exactly if it is one. So the union or intersection that is the type of the items
of an array always stands in parentheses, and nothing but a single record is declared as an
interface: neither by the model of a schema, nor by that of a type given by its text, nor by that of
a payload. -/
theorem text_tells_structure {g : Graph} {v : Value} {p : String} {r : Resolved}
    (success : resolve g v p = .ok r) :
    ∃ o, HasOutline g v o ∧
      TypeText.Scan.run {} r.text.toList = {} ∧
      (∀ start, start <+: r.text.toList → 0 ≤ (TypeText.Scan.run {} start).depth) ∧
      TypeText.isCompound r.text = o.isCompound ∧
      TypeText.isRecord r.text = o.isRecord ∧
      (∀ place composed items, (place, .array composed items) ∈ o.visits p →
        items.isCompound → ("(" ++ items.text ++ ")[]").toList <:+: r.text.toList) ∧
      (∀ name m, Model.ofSchema g name v = .ok m → m.IsInterface → o.isRecord) ∧
      (∀ name imports, (Model.ofText name r.text imports).IsInterface ↔ o.isRecord) ∧
      (∀ items payload name imports, Payload.ofItems g items = .ok payload →
        r.text ∈ payload.values →
        ((Model.ofText name payload.text imports).IsInterface ↔
          payload.values = [r.text] ∧ o.isRecord)) := by
  obtain ⟨o, outline, result⟩ := exists_outline_of_resolve success
  rw [Outline.text_of_result result]
  have balanced := o.balanced_text
  refine ⟨o, outline, balanced.settled 0, balanced.below 0, o.isCompound_text, o.isRecord_text,
    ?_, ?_, ?_, ?_⟩
  · intro place composed items visited compound
    have inside := Outline.infix_text_of_mem_visits visited
    simpa only [Outline.text, compound, Bool.or_true, if_true] using inside
  · intro name m model interface
    obtain ⟨q, r', resolves, record⟩ := Model.isRecord_of_isInterface model interface
    rw [outline.resolve_eq_result] at resolves
    rwa [Outline.text_of_result resolves, Outline.isRecord_text] at record
  · intro name imports
    rw [Model.isInterface_ofText_iff, Outline.isRecord_text]
  · intro items payload name imports types member
    rw [Model.isInterface_ofText_iff, Payload.isRecord_text_iff (Payload.balanced_values types)]
    constructor
    · rintro ⟨t, single, record⟩
      rw [single, List.mem_singleton] at member
      subst member
      exact ⟨single, by rwa [Outline.isRecord_text] at record⟩
    · rintro ⟨single, record⟩
      exact ⟨o.text, single, by rwa [Outline.isRecord_text]⟩

/-- An array of texts that may be null. -/
def nullableTexts : Graph :=
  ⟨#[.mapping [(.text "type", .text "array"), (.text "items", .node 1)],
     .mapping [(.text "type", .text "string"), (.text "nullable", .scalar (.bool true))]]⟩

theorem nullable_texts_are_neither_union_nor_record :
    resolve nullableTexts (.node 0) "#" = .ok ⟨"(string | null)[]", [], []⟩ ∧
      ∃ o, HasOutline nullableTexts (.node 0) o ∧ o.isCompound = false ∧ o.isRecord = false := by
  have success : resolve nullableTexts (.node 0) "#" = .ok ⟨"(string | null)[]", [], []⟩ := by
    with_unfolding_all rfl
  obtain ⟨o, outline, -, -, compound, record, -⟩ := text_tells_structure success
  exact ⟨success, o, outline, by rw [← compound]; decide, by rw [← record]; decide⟩

end Schema

end TypedClient
