import TypedClient.Proofs.Model.Imports
import TypedClient.Proofs.Operation.References
import TypedClient.Proofs.Parameter.Imports

/-!
# Imports of operations

Whatever an operation takes or returns is mentioned in its document. So the imports of an operation
are mentioned there, except the model of its response where that is a record; and this model imports
only what is mentioned.
-/
namespace TypedClient

variable {g : Graph} {root : Value}

/-- Whatever the operation is compiled from stands in the document. -/
structure Slot.Within (g : Graph) (root : Value) (slot : Slot) : Prop where
  operation : g.Covers root slot.operation
  shared : ∀ vs, slot.shared = .ok vs → ∀ v ∈ vs, g.Covers root v
  components : g.Covers root slot.components

namespace Operation

variable {slot : Slot} {o : Operation}

theorem within_of_declared {ds : List Declaration} (within : slot.Within g root)
    (stated : declared g slot = .ok ds) : ∀ d ∈ ds, d.Within g root := by
  obtain ⟨route, -, merged⟩ := Except.bind_eq_ok stated
  refine Declaration.within_of_merge within.components within.shared (fun vs own v member => ?_)
    merged
  exact (within.operation.trans (.field "parameters")).trans (.optionalElement own member)

theorem Takes.mentions {name : String} (within : slot.Within g root) (takes : Takes g slot name) :
    g.MentionsType root name := by
  cases takes with
  | query stated member here refers =>
    exact (within_of_declared within stated _ member).mentions refers
  | path stated member here called refers =>
    exact (within_of_declared within stated _ member).mentions refers
  | body refers =>
    exact refers.mentions.of_covers (within.operation.trans (.field "requestBody"))

theorem Returns.mentions {name : String} (within : slot.Within g root)
    (returns : Returns g slot name) : g.MentionsType root name := by
  obtain ⟨e, response, -, refers⟩ := returns
  have covers := (within.operation.trans (.field "responses")).trans (.entry response)
  exact refers.mentions.of_covers covers

/-- An operation imports the model of its response, or what the document mentions. -/
theorem of_compileClaimed {id : Scalar} (within : slot.Within g root)
    (success : compileClaimed g slot (g.fields slot.operation) id = .ok o) :
    (∀ n ∈ o.imports, (∃ m, o.responseModel = some m ∧ m.name = n) ∨ g.MentionsType root n) ∧
      ∀ m, o.responseModel = some m →
        m.name = Naming.pascalCase o.id ++ "Response" ∧ ∀ n ∈ m.imports, g.MentionsType root n := by
  obtain ⟨-, parts, made⟩ := exists_parts success
  constructor
  · intro n needed
    cases made.refers_of_mem_imports needed with
    | takes takes => exact .inr (takes.mentions within)
    | returns plain returns => exact .inr (returns.mentions within)
    | model lifted named => exact .inl ⟨_, lifted, named⟩
  · intro m lifted
    obtain ⟨named, imports⟩ := made.of_responseModel lifted
    exact ⟨named, fun n needed => ((imports n).mp needed).1.mentions within⟩

end Operation

end TypedClient
