import TypedClient.Proofs.Naming.Words
import TypedClient.Proofs.Operation.Bindings

/-!
# Names of parameters

A parameter in the path is named after its placeholder, the body after its type, and the query has a name
of its own. Camel case makes an identifier of a placeholder or of a type only if the first letter or digit
in it is a letter: it drops what stands before, and keeps a digit. A placeholder without any letter or
digit stays what it is, and a type without any is a body. So this is what all names are identifiers by.
-/
namespace TypedClient

namespace Naming

/-- The first letter or digit of the text is a digit. -/
def beginsWithDigit (s : String) : Bool := (s.toList.find? Char.isAlphanum).any Char.isDigit

/-- What a parameter in the path can be named after. -/
def isNameable (placeholder : String) : Bool :=
  isIdentifier placeholder || beginsWithLetter placeholder

theorem isIdentifier_placeholderIdentifier (name : String) :
    isIdentifier (placeholderIdentifier name) = isNameable name := by
  unfold placeholderIdentifier isNameable
  split
  · next identifier => rw [identifier, Bool.true_or]
  · next other => rw [isIdentifier_camelCase, Bool.eq_false_iff.mpr other, Bool.false_or]

theorem isNameable_of_placeholderIdentifier_eq_empty {name : String}
    (unnamed : placeholderIdentifier name = "") : isNameable name = isIdentifier name := by
  have none := isIdentifier_placeholderIdentifier name
  rw [unnamed] at none
  have other : isNameable name = false := none.symm
  rw [other]
  rw [isNameable, Bool.or_eq_false_iff] at other
  exact other.1.symm

/-- A text that has a name has a first letter or digit, which is the one or the other. -/
theorem beginsWithLetter_eq_not_beginsWithDigit {s : String} (named : camelCase s ≠ "") :
    beginsWithLetter s = !beginsWithDigit s := by
  unfold beginsWithLetter beginsWithDigit
  cases first : s.toList.find? Char.isAlphanum with
  | none =>
    refine absurd (camelCase_eq_empty_iff.mpr fun c member => ?_) named
    simpa using List.find?_eq_none.mp first c member
  | some c =>
    have letter := List.find?_some first
    exact of_isAlphanum (fun c => c.isAlpha = !c.isDigit) (by decide) letter

theorem beginsWithDigit_of_camelCase_eq_empty {s : String} (unnamed : camelCase s = "") :
    beginsWithDigit s = false := by
  have none : s.toList.find? Char.isAlphanum = none :=
    List.find?_eq_none.mpr fun c member => by simp [camelCase_eq_empty_iff.mp unnamed c member]
  rw [beginsWithDigit, none]
  rfl

end Naming

namespace Operation

open Naming (isIdentifier isNameable beginsWithDigit)

variable {g : Graph} {slot : Slot} {o : Operation}

/-- A parameter without a name of its own has the name that it is declared under, if it is declared
under one. -/
theorem name_of_unnamed {components : Value} {p q : String} {v : Value} {d : Declaration}
    {param : Parameter} (declared : Declaration.ofValue g components q v = .ok d)
    (compiled : Parameter.ofFields g p (some "") d.fields = .ok param) :
    param.name = d.name ∨ d.name = "None" := by
  obtain ⟨w, -, declared⟩ := Except.bind_eq_ok declared
  obtain ⟨es, -, declared⟩ := Except.bind_eq_ok declared
  obtain ⟨name, named, declared⟩ := Except.bind_eq_ok declared
  obtain ⟨place, -, declared⟩ := Except.bind_eq_ok declared
  cases declared
  have stated := (Parameter.ofFields_eq_ok_iff.mp compiled).1
  simp only [Parameter.statedName, Option.filter_some, ne_eq, not_true_eq_false, decide_false,
    Bool.false_eq_true, if_false] at stated
  unfold Entries.field at named
  cases key : Entries.lookup? es (.text "name") with
  | none =>
    rw [key] at named
    exact .inr (Except.ok.inj named).symm
  | some v =>
    rw [key] at named stated
    exact .inl (Except.ok.inj (stated.symm.trans named))

/-- A parameter in the path has an identifier exactly if its placeholder can be made one. -/
theorem isIdentifier_of_pathParameter {components : Value} {pointer q id name : String}
    {ds : List Declaration} {shared own : Result (List Value)} {p : Parameter}
    (merged : Declaration.merge g components q shared own = .ok ds)
    (success : pathParameter g pointer id ds name = .ok p) :
    isIdentifier p.name = isNameable name := by
  by_cases unnamed : Naming.placeholderIdentifier name = ""
  · obtain ⟨d, member, -, named, compiled⟩ := exists_declaration_of_pathParameter success
    obtain ⟨_, v, -, declared⟩ := Declaration.exists_ofValue_of_merge merged d member
    rw [unnamed] at compiled
    rcases name_of_unnamed declared compiled with same | absent
    · rw [same, named, Naming.isNameable_of_placeholderIdentifier_eq_empty unnamed]
    · rw [← named, absent] at unnamed
      exact absurd unnamed (by decide +kernel)
  · rw [name_of_pathParameter success unnamed, Naming.isIdentifier_placeholderIdentifier]

/-- The body has an identifier unless its type begins with a digit. -/
theorem isIdentifier_of_bodyParameter? {request : Payload} {b : Parameter}
    (body : bodyParameter? request = some b) :
    isIdentifier b.name = !beginsWithDigit request.text := by
  have named : b.name =
      if Naming.camelCase request.text = "" then "body" else Naming.camelCase request.text := by
    unfold bodyParameter? at body
    split at body
    · cases body
    · rw [← Option.some.inj body]
  rw [named]
  split
  · next unnamed =>
    rw [Naming.beginsWithDigit_of_camelCase_eq_empty unnamed]
    decide
  · next given =>
    rw [Naming.isIdentifier_camelCase, Naming.beginsWithLetter_eq_not_beginsWithDigit given]

theorem text_eq_empty_of_bodyParameter? {request : Payload} (none : bodyParameter? request = none) :
    request.text = "" := by
  unfold bodyParameter? at none
  split at none
  · assumption
  · cases none

/-- The names of the parameters of a method are all identifiers exactly if each placeholder of its route
is one or begins with a letter, and the type of its body does not begin with a digit, what is neither
letter nor digit not counted. It depends on the placeholder alone whether the parameter of a placeholder
has one, and on the type alone whether the body has one. The query always has one. -/
theorem names_are_identifiers_iff {claimed : List Scalar}
    (success : (compile g slot claimed).1 = .ok o) :
    ∃ parts : Parts, parts.Of g slot (g.fields slot.operation) o ∧
      o.parameters.Perm
        (parts.inPath ++ (bodyParameter? parts.request).toList ++ parts.inQuery.toList) ∧
      List.Forall₂ (fun name p => isIdentifier p.name = isNameable name)
        (placeholders slot.verb parts.route) parts.inPath ∧
      (∀ b ∈ bodyParameter? parts.request, isIdentifier b.name = !beginsWithDigit o.requestType) ∧
      (∀ q ∈ parts.inQuery, isIdentifier q.name = true) ∧
      ((∀ p ∈ o.parameters, isIdentifier p.name = true) ↔
        (∀ name ∈ placeholders slot.verb parts.route, isNameable name = true) ∧
          beginsWithDigit o.requestType = false) := by
  obtain ⟨parts, made⟩ := exists_parts_of_compile success
  have perm := made.parameters_perm
  have inPath : List.Forall₂ (fun name p => isIdentifier p.name = isNameable name)
      (placeholders slot.verb parts.route) parts.inPath :=
    (forall₂_of_mapM made.inPath).imp fun _ _ here => isIdentifier_of_pathParameter made.declared here
  have body : ∀ b ∈ bodyParameter? parts.request,
      isIdentifier b.name = !beginsWithDigit o.requestType := fun b taken => by
    rw [made.requestType]
    exact isIdentifier_of_bodyParameter? taken
  have query : ∀ q ∈ parts.inQuery, isIdentifier q.name = true := fun q taken => by
    rw [(queryParameter?_eq_ok made.inQuery).2 q taken]
    decide
  refine ⟨parts, made, perm, inPath, body, query, fun all => ⟨fun name member => ?_, ?_⟩, ?_⟩
  · obtain ⟨p, taken, same⟩ := exists_right_of_forall₂ inPath member
    rw [← same]
    exact all p (perm.mem_iff.mpr (by simp [Parts.given, taken]))
  · cases taken : bodyParameter? parts.request with
    | none =>
      rw [made.requestType, text_eq_empty_of_bodyParameter? taken]
      decide
    | some b =>
      have here := body b taken
      rw [all b (perm.mem_iff.mpr (by simp [Parts.given, taken]))] at here
      simpa using here.symm
  · rintro ⟨nameable, letter⟩ p member
    have member := perm.mem_iff.mp member
    rw [Parts.given, List.mem_append, List.mem_append, Option.mem_toList, Option.mem_toList] at member
    rcases member with (taken | taken) | taken
    · obtain ⟨name, among, same⟩ := exists_right_of_forall₂ inPath.flip taken
      rw [same]
      exact nameable name among
    · rw [body p taken, letter]
      rfl
    · exact query p taken

/-- Files that are tagged, by their identifier and with a reference or by their place and with one of two
numbers. -/
def filesGraph : Graph :=
  ⟨#[.mapping [(.text "operationId", .text "tagFile"), (.text "parameters", .node 2),
       (.text "requestBody", .node 5)],
     .mapping [(.text "operationId", .text "rateFile"), (.text "parameters", .node 2),
       (.text "requestBody", .node 6)],
     .list [.node 3, .node 4],
     .mapping [(.text "name", .text "file-id"), (.text "in", .text "path"),
       (.text "required", .scalar (.bool true))],
     .mapping [(.text "name", .text "1st"), (.text "in", .text "path"),
       (.text "required", .scalar (.bool true))],
     .mapping [(.text "$ref", .text "#/components/requestBodies/Tag")],
     .mapping [(.text "content", .node 7)],
     .mapping [(.text "application/json", .node 8)],
     .mapping [(.text "schema", .node 9)],
     .mapping [(.text "type", .text "string"), (.text "enum", .node 10)],
     .list [.text "1", .text "2"]]⟩

def tagSlot : Slot := ⟨"post", .text "/files/{file-id}/tags", .node 0, .ok [], .null⟩

def rateSlot : Slot := ⟨"post", .text "/files/{1st}/rating", .node 1, .ok [], .null⟩

theorem tagged_file_has_an_identifier :
    ∃ o, (compile filesGraph tagSlot []).1 = .ok o ∧
      o.parameters.map (·.name) = ["fileId", "tagRequestBody"] ∧ o.requestType = "TagRequestBody" ∧
      ∀ p ∈ o.parameters, isIdentifier p.name = true := by
  have evaluated : ((compile filesGraph tagSlot []).1.toOption.map fun o =>
      (o.parameters.map (·.name), o.requestType)) =
        some (["fileId", "tagRequestBody"], "TagRequestBody") := by
    decide +kernel
  obtain ⟨o, success, same⟩ := Except.exists_of_map_toOption evaluated
  obtain ⟨names, type⟩ := Prod.mk.inj same
  obtain ⟨parts, made, -, -, -, -, all⟩ := names_are_identifiers_iff success
  have route : parts.route = "/files/{file-id}/tags" := (Except.ok.inj made.route).symm
  have listed : placeholders tagSlot.verb "/files/{file-id}/tags" = ["file-id"] := by decide +kernel
  refine ⟨o, success, names, type, all.mpr ⟨?_, ?_⟩⟩
  · rw [route, listed]
    decide +kernel
  · rw [type]
    decide

/-- A placeholder that begins with a digit and a type that does so give their parameters names which are
no identifiers. -/
theorem first_file_has_no_identifier :
    (compile filesGraph rateSlot []).1.toOption.map (·.definition) =
      some "  rateFile(1st: any, 12: '1' | '2'): AxiosPromise<unknown>;" ∧
    ∃ o, (compile filesGraph rateSlot []).1 = .ok o ∧ o.parameters.map (·.name) = ["1st", "12"] ∧
      ∀ p ∈ o.parameters, isIdentifier p.name = false := by
  have evaluated : ((compile filesGraph rateSlot []).1.toOption.map fun o =>
      (o.parameters.map (·.name))) = some ["1st", "12"] := by
    decide +kernel
  obtain ⟨o, success, names⟩ := Except.exists_of_map_toOption evaluated
  refine ⟨by decide +kernel, o, success, names, fun p member => ?_⟩
  have named := List.mem_map_of_mem (f := (·.name)) member
  rw [names, List.mem_pair] at named
  rcases named with first | number
  · rw [first]
    decide
  · rw [number]
    decide

end Operation

end TypedClient
