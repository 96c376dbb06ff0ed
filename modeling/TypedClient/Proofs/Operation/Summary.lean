import TypedClient.Proofs.Operation.Compilation
import TypedClient.Proofs.Text.Comments

/-!
# Summaries

The summary of an operation stands as a comment before the signature of its method, and in nothing else
that is compiled from the operation. Only its first line is marked as a comment. So the lines before the
signature are all marked exactly if the other lines of the summary begin with the mark themselves.
-/
namespace TypedClient.Operation

open Text (LineEnds isMarked)

/-- The summary of an operation that is written as a comment. -/
def commentOf (g : Graph) (slot : Slot) : Option String :=
  (summary? g (g.fields slot.operation)).toOption.join

/-- The definition of a method with a comment before its signature. -/
def definitionWith (o : Operation) (comment : Option String) : String :=
  definitionText comment o.name (Text.joinWith ", " (o.parameters.map Parameter.definition))
    o.responseType

/-- The operation with another comment. -/
def withComment (o : Operation) (comment : Option String) : Operation :=
  { o with definition := o.definitionWith comment }

/-- The signature of a method in the interface. -/
def signature (o : Operation) : String := o.definitionWith none

/-- The second slot is the first one but for the summary of its operation, which is a text or any other
value that has one, or is missing. -/
structure Resummarized (g : Graph) (slot slot' : Slot) : Prop where
  verb : slot'.verb = slot.verb
  route : slot'.route = slot.route
  shared : slot'.shared = slot.shared
  components : slot'.components = slot.components
  mapping : g.isMapping slot'.operation = true
  others : ∀ name, name ≠ "summary" →
    (g.fields slot'.operation).field name = (g.fields slot.operation).field name
  summary : ∃ comment, summary? g (g.fields slot'.operation) = .ok comment

/-- A summary that is added to an operation leaves the other fields as they are. -/
theorem field_append_summary (es : Entries) (summary : Value) {name : String}
    (other : name ≠ "summary") :
    Entries.field (es ++ [(.text "summary", summary)]) name = es.field name := by
  have differs : (Scalar.text "summary").same (.text name) = false := by
    rw [Bool.eq_false_iff, ne_eq, Scalar.same_text_iff, Scalar.text.injEq]
    exact other.symm
  rw [Entries.field, Entries.field, Entries.lookup?, Entries.lookup?, List.find?_append]
  simp [differs]

variable {g : Graph} {slot slot' : Slot} {o : Operation} {id : Scalar}

/-- The comment of an operation with a text as its summary is this text, unless it is empty. -/
theorem commentOf_of_text {s : String} (text : (g.fields slot.operation).field "summary" = .text s) :
    commentOf g slot = if s = "" then none else some s := by
  rw [commentOf, summary?, text]
  by_cases empty : s = "" <;> simp [Graph.truthy, Value.text, Scalar.truthy, empty] <;> rfl

theorem comment_of_summary? {comment : Option String}
    (summarized : summary? g (g.fields slot.operation) = .ok comment) :
    commentOf g slot = comment := by
  rw [commentOf, summarized]
  rfl

/-- Of all that is compiled from an operation only the comment comes from the summary. -/
theorem compileClaimed_comment
    (compiled : compileClaimed g slot (g.fields slot.operation) id = .ok o) :
    o.definition = o.definitionWith (commentOf g slot) ∧
      ∀ slot', Resummarized g slot slot' →
        compileClaimed g slot' (g.fields slot'.operation) id =
          .ok (o.withComment (commentOf g slot')) := by
  unfold compileClaimed at compiled
  obtain ⟨route, called, compiled⟩ := Except.bind_eq_ok compiled
  obtain ⟨name, named, compiled⟩ := Except.bind_eq_ok compiled
  simp only at compiled
  obtain ⟨ds, declared, compiled⟩ := Except.bind_eq_ok compiled
  obtain ⟨inPath, placeholders, compiled⟩ := Except.bind_eq_ok compiled
  obtain ⟨request, requested, compiled⟩ := Except.bind_eq_ok compiled
  obtain ⟨inQuery, queried, compiled⟩ := Except.bind_eq_ok compiled
  obtain ⟨responses, listed, compiled⟩ := Except.bind_eq_ok compiled
  obtain ⟨payload, succeeds, compiled⟩ := Except.bind_eq_ok compiled
  obtain ⟨comment, summarized, compiled⟩ := Except.bind_eq_ok compiled
  obtain ⟨arguments, taken, compiled⟩ := Except.bind_eq_ok compiled
  obtain rfl := Except.ok.inj compiled
  rw [comment_of_summary? summarized]
  refine ⟨by dsimp only [definitionWith], fun slot' again => ?_⟩
  obtain ⟨comment', anew⟩ := again.summary
  rw [comment_of_summary? anew]
  -- the other fields and the slot are the same, so every step but the summary goes as before
  unfold compileClaimed
  rw [again.others "parameters" (by decide), again.others "requestBody" (by decide),
    again.others "responses" (by decide), again.verb, again.route, again.shared, again.components]
  simp only [called, named, declared, placeholders, requested, queried, listed, succeeds, anew, taken,
    Except.ok_bind, withComment, definitionWith]
  dsimp only [pure, Except.pure]

theorem definition_of_compile {claimed : List Scalar} (success : (compile g slot claimed).1 = .ok o) :
    o.definition = o.definitionWith (commentOf g slot) := by
  obtain ⟨es, id, entries, -, compiled, -⟩ := compile_eq.mp (Prod.ext success rfl)
  rw [← Graph.fields_of_entries entries] at compiled
  exact (compileClaimed_comment compiled).1

/-- Whatever its summary, an operation is compiled to the same but for the comment. -/
theorem CompiledFrom.resummarized (here : CompiledFrom g slot o) (again : Resummarized g slot slot') :
    CompiledFrom g slot' (o.withComment (commentOf g slot')) := by
  obtain ⟨es, id, entries, claims, compiled, -⟩ := compile_eq.mp (Prod.ext here.compiled rfl)
  obtain ⟨given, comparable, free⟩ := claim_eq_ok claims
  rw [← Graph.fields_of_entries entries] at given comparable compiled
  rw [← again.others "operationId" (by decide)] at given comparable
  have entries' := Graph.entries_of_isMapping again.mapping
  refine compiledFrom ?_
  rw [compile_eq.mpr ⟨_, id, entries', claim_of given comparable free,
    (compileClaimed_comment compiled).2 slot' again, rfl⟩]

section Lines

variable (ends : LineEnds) (o)

theorem definitionWith_some (s : String) :
    o.definitionWith (some s) = "  // " ++ s ++ "\n" ++ o.signature := rfl

/-- The lines of a definition are those of its comment and those of the signature. -/
theorem linesOf_definitionWith (comment : Option String) :
    ends.linesOf (o.definitionWith comment) =
      (comment.toList.flatMap fun s => ends.linesOf ("  // " ++ s)) ++ ends.linesOf o.signature := by
  cases comment with
  | none => rfl
  | some s =>
    rw [definitionWith_some, LineEnds.linesOf_append, Option.toList_some, List.flatMap_singleton]

/-- The lines before the signature are marked as a comment exactly if the lines of the summary behind its
first one are. -/
theorem isMarked_before_signature (comment : Option String) :
    (∀ line ∈ comment.toList.flatMap fun s => ends.linesOf ("  // " ++ s), isMarked line = true) ↔
      ∀ s ∈ comment, ∀ line ∈ ends.behind s, isMarked line = true := by
  cases comment with
  | none => simp
  | some s =>
    obtain ⟨first, marked, cut⟩ := ends.linesOf_comment s
    simp [cut, marked]

/-- The code of a definition is what leaks out of its comment and the signature. -/
theorem code_definitionWith (comment : Option String) :
    ends.code (o.definitionWith comment) =
      comment.toList.flatMap ends.leaked ++ ends.code o.signature := by
  cases comment with
  | none => rfl
  | some s =>
    rw [definitionWith_some, LineEnds.code_append, LineEnds.code_comment, Option.toList_some,
      List.flatMap_singleton]

end Lines

end TypedClient.Operation
