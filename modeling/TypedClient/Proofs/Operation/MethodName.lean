import TypedClient.Proofs.Naming.Recasing
import TypedClient.Proofs.Operation.Compilation

/-!
# Names of methods

A method is named after the identifier of its operation, by way of the name of a component: what has been
put into pascal case is cased again. That comes to the name of the identifier exactly if casing a name
again changes nothing, so if no two words of the identifier run together.
-/
namespace TypedClient.Operation

open Naming (pascalCase camelCase KeepsWords)

variable {g : Graph} {slot : Slot} {claimed : List Scalar} {o : Operation}

/-- An operation that compiles beside claimed identifiers compiles alone. -/
theorem compile_alone (success : (compile g slot claimed).1 = .ok o) :
    (compile g slot []).1 = .ok o := by
  obtain ⟨es, id, entries, claims, compiled, -⟩ := compile_eq.mp (Prod.ext success rfl)
  obtain ⟨given, comparable, -⟩ := claim_eq_ok claims
  exact congrArg Prod.fst
    (compile_eq.mpr ⟨es, id, entries, claim_of given comparable rfl, compiled, rfl⟩)

/-- Casing a text again changes nothing exactly if no two words run together in it. So it is with methods:
an operation whose identifier is the text gets a method with the name in camel case of the name in pascal
case, and that is the text cased once in camel case exactly if no two words run together in it. -/
theorem methods_are_named_after_identifiers_iff (s : String) :
    (pascalCase (pascalCase s) = pascalCase s ↔ KeepsWords s) ∧
    ∀ (g : Graph) (slot : Slot) (claimed : List Scalar) (o : Operation),
      (g.fields slot.operation).field "operationId" = .text s →
      (compile g slot claimed).1 = .ok o →
        o.id = s ∧ o.name = camelCase (pascalCase s) ∧ (o.name = camelCase s ↔ KeepsWords s) := by
  refine ⟨Naming.pascalCase_pascalCase_iff s, fun g slot claimed o stated success => ?_⟩
  obtain ⟨es, id, -, -, compiled, -⟩ := compile_eq.mp (Prod.ext success rfl)
  obtain ⟨-, parts, -, signed⟩ := exists_signed_parts compiled
  have identified := (compiledFrom (compile_alone success)).id
  obtain rfl : s = o.id := by
    cases stated.symm.trans identified
    rfl
  refine ⟨rfl, signed.name, ?_⟩
  rw [signed.name, Naming.camelCase_pascalCase_iff, Naming.pascalCase_pascalCase_iff]

/-- Two operations, each with a word of a single letter in its identifier: the one with a longer word
behind it, the other with another letter. The second one answers with a record. -/
def shortWords : Graph :=
  ⟨#[.mapping [(.text "operationId", .text "get_a_pet")],
     .mapping [(.text "operationId", .text "get_a_b"), (.text "responses", .node 2)],
     .mapping [(.text "200", .node 3)],
     .mapping [(.text "content", .node 4)],
     .mapping [(.text "application/json", .node 5)],
     .mapping [(.text "schema", .node 6)],
     .mapping [(.text "properties", .node 7)],
     .mapping [(.text "b", .node 8)],
     .mapping [(.text "type", .text "string")]]⟩

def getPetSlot : Slot := ⟨"get", .text "/pets/a", .node 0, .ok [], .null⟩

def getLetterSlot : Slot := ⟨"get", .text "/a/b", .node 1, .ok [], .null⟩

theorem a_pet_stays_a_pet :
    pascalCase (pascalCase "get_a_pet") = pascalCase "get_a_pet" ∧
    ∃ o, (compile shortWords getPetSlot []).1 = .ok o ∧ o.id = "get_a_pet" ∧
      o.name = camelCase "get_a_pet" := by
  obtain ⟨o, success⟩ : ∃ o, (compile shortWords getPetSlot []).1 = .ok o :=
    Except.exists_ok (by decide +kernel)
  have kept : KeepsWords "get_a_pet" := by decide +kernel
  obtain ⟨again, methods⟩ := methods_are_named_after_identifiers_iff "get_a_pet"
  obtain ⟨identified, -, named⟩ := methods shortWords getPetSlot [] o (by decide +kernel) success
  exact ⟨again.mpr kept, o, success, identified, named.mpr kept⟩

/-- Two words of a single letter run together: the name changes when it is cased again, and the method is
called otherwise than its identifier and than the model of its response. -/
theorem single_letters_run_together :
    pascalCase "get_a_b" = "GetAB" ∧ pascalCase (pascalCase "get_a_b") = "GetAb" ∧
    ∃ o, (compile shortWords getLetterSlot []).1 = .ok o ∧ o.id = "get_a_b" ∧ o.name = "getAb" ∧
      camelCase o.id = "getAB" ∧ o.responseModel.map (·.name) = some "GetABResponse" := by
  have evaluated : ((compile shortWords getLetterSlot []).1.toOption.map fun o =>
      (o.id, o.name, o.responseModel.map (·.name))) =
        some ("get_a_b", "getAb", some "GetABResponse") := by
    decide +kernel
  obtain ⟨o, success, same⟩ := Except.exists_of_map_toOption evaluated
  obtain ⟨identified, rest⟩ := Prod.mk.inj same
  obtain ⟨named, model⟩ := Prod.mk.inj rest
  refine ⟨by decide +kernel, by decide +kernel, o, success, identified, named, ?_, model⟩
  rw [identified]
  decide +kernel

end TypedClient.Operation
