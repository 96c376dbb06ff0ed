import TypedClient.Proofs.Reference.Grammar
import TypedClient.Schema

/-!
# Components that references refer to

A reference refers to the component that its text names, or is refused with its text and the pointer of
where it stands. What it refers to can be put together to the same text again, so no two texts refer to
one component.
-/
namespace TypedClient

/-- The keys of namespaces are these four. -/
theorem Namespace.mem_keys_iff {key : String} :
    key ∈ ["schemas", "responses", "parameters", "requestBodies"] ↔ ∃ ns : Namespace, key = ns.key := by
  constructor
  · intro listed
    have known : key ∈ all.map Namespace.key := listed
    obtain ⟨ns, -, rfl⟩ := List.mem_map.mp known
    exact ⟨ns, rfl⟩
  · rintro ⟨ns, rfl⟩
    cases ns <;> decide

namespace Schema

variable {text : String} {pointer : Option String} {r : Reference}

theorem component_eq_ok_iff :
    component text pointer = .ok r ↔ text = r.text ∧ r.name ≠ "" ∧ '/' ∉ r.name.toList := by
  rw [← Reference.parse?_eq_some_iff, component]
  cases Reference.parse? text with
  | none => exact iff_of_false nofun nofun
  | some r' => simp

/-- A text that refers to no component is refused with itself and its place. -/
theorem component_of_refused (refused : ∀ r, component text pointer ≠ .ok r) :
    component text pointer = fail (.unsupportedReference text pointer) := by
  unfold component at refused ⊢
  cases parsed : Reference.parse? text with
  | none => rfl
  | some r =>
    rw [parsed] at refused
    exact absurd rfl (refused r)

/-- A text refers to a component exactly if behind the root there is the key of one of the four
namespaces, a slash, and a name that is not empty and has no slash. The component is that of the namespace
and the name from which the text is put together, so one component is referred to by one text only. Every
other text is refused with itself and the pointer that was given. -/
theorem text_refers_to_its_component (text : String) (pointer : Option String) :
    ((∃ r, component text pointer = .ok r) ↔
      ∃ key ∈ ["schemas", "responses", "parameters", "requestBodies"], ∃ name : String,
        text = "#/components/" ++ key ++ "/" ++ name ∧ name ≠ "" ∧ '/' ∉ name.toList) ∧
    (∀ r, component text pointer = .ok r ↔
      text = "#/components/" ++ r.namespace_.key ++ "/" ++ r.name ∧ r.name ≠ "" ∧
        '/' ∉ r.name.toList) ∧
    (∀ text' pointer' r, component text pointer = .ok r → component text' pointer' = .ok r →
      text' = text) ∧
    ((∀ r, component text pointer ≠ .ok r) →
      component text pointer = fail (.unsupportedReference text pointer)) := by
  refine ⟨⟨?_, ?_⟩, fun r => component_eq_ok_iff, ?_, component_of_refused⟩
  · rintro ⟨r, success⟩
    exact ⟨r.namespace_.key, Namespace.mem_keys_iff.mpr ⟨_, rfl⟩, r.name,
      component_eq_ok_iff.mp success⟩
  · rintro ⟨key, listed, name, spelled⟩
    obtain ⟨ns, rfl⟩ := Namespace.mem_keys_iff.mp listed
    exact ⟨⟨ns, name⟩, component_eq_ok_iff.mpr spelled⟩
  · intro text' pointer' r success success'
    exact (component_eq_ok_iff.mp success').1.trans (component_eq_ok_iff.mp success).1.symm

/-- A name with dots and a pointer beyond the name of a component. -/
theorem nested_reference_is_refused :
    component "#/components/responses/v1.Pet" none = .ok ⟨.responses, "v1.Pet"⟩ ∧
    "#/components/responses/v1.Pet" = "#/components/" ++ "responses" ++ "/" ++ "v1.Pet" ∧
    component "#/components/schemas/Pet/properties" (some "#/a") =
      fail (.unsupportedReference "#/components/schemas/Pet/properties" (some "#/a")) := by
  have success : component "#/components/responses/v1.Pet" none = .ok ⟨.responses, "v1.Pet"⟩ :=
    component_eq_ok_iff.mpr (by decide +kernel)
  obtain ⟨-, spelled, -⟩ := text_refers_to_its_component "#/components/responses/v1.Pet" none
  obtain ⟨-, -, -, refused⟩ :=
    text_refers_to_its_component "#/components/schemas/Pet/properties" (some "#/a")
  refine ⟨success, ((spelled _).mp success).1, refused fun r => ?_⟩
  intro success
  have failed : (component "#/components/schemas/Pet/properties" (some "#/a")).toOption = none := by
    decide +kernel
  rw [success] at failed
  cases failed

end Schema

end TypedClient
