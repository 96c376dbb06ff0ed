import TypedClient.Proofs.Discriminator.Plan

/-!
# Carrying out discriminators again

A document whose discriminators have been carried out has the plan that it had before. So a second
run gives the same warnings and writes the same literals to the same nodes, in new lists: what comes
out looks as it did, whatever the plan has in it.
-/
namespace TypedClient

theorem Entries.forall₂_put {R : Value → Value → Prop} {es : Entries} {v' v : Value} (key : Scalar)
    (written : R v' v) (below : List.Forall₂ R (es.map (·.2)) (es.map (·.2))) :
    List.Forall₂ R ((put key v' es).map (·.2)) ((put key v es).map (·.2)) := by
  induction es with
  | nil => exact .cons written .nil
  | cons e es ih =>
    cases below with
    | cons here below =>
      unfold put
      split
      · exact .cons written below
      · exact .cons here (ih below)

namespace Graph

variable {g h h' : Graph} {literals : NodeId → Option Scalar} {document v w : Value}

/-- What stands in a settled document: what stood there before, and literals in lists of their own. -/
inductive Origin (g : Graph) (document : Value) (h : Graph) : Value → Prop
  | scalar (s : Scalar) : Origin g document h (.scalar s)
  | kept {v : Value} (contains : g.Contains document v) : Origin g document h v
  | list {n : Nat} {literal : Scalar} (node : h.nodes[n]? = some (.list [.scalar literal])) :
    Origin g document h (.node n)

/-- Values of two settled documents in the same place. -/
inductive Twin (g : Graph) (document : Value) (h' h : Graph) : Value → Value → Prop
  | scalar (s : Scalar) : Twin g document h' h (.scalar s) (.scalar s)
  | kept {v : Value} (contains : g.Contains document v) : Twin g document h' h v v
  | list {n' n : Nat} {literal : Scalar} (node' : h'.nodes[n']? = some (.list [.scalar literal]))
    (node : h.nodes[n]? = some (.list [.scalar literal])) : Twin g document h' h (.node n') (.node n)

theorem parts_of_list {n : Nat} {literal : Scalar}
    (node : h.nodes[n]? = some (.list [.scalar literal])) : h.parts (.node n) = [.scalar literal] := by
  rw [parts, node]
  rfl

namespace Settled

/-- A part of a value stood in it before, or it is a new list with a literal. -/
theorem part_cases (settled : Settled g literals h) (whole : g.Whole document)
    (contains : g.Contains document v) (part : w ∈ h.parts v) :
    w ∈ g.parts v ∨ ∃ n : Nat, ∃ literal, w = .node n ∧ h.nodes[n]? = some (.list [.scalar literal]) := by
  cases v with
  | scalar s => cases part
  | node id =>
    cases here : literals id with
    | none =>
      rw [parts, settled.kept id (whole id contains) here] at part
      exact .inl part
    | some literal =>
      obtain ⟨fields, n, mapping, -, written, list⟩ := settled.written id literal here
      rw [parts, written] at part
      obtain ⟨e, member, rfl⟩ := List.mem_map.mp part
      rcases Entries.mem_of_mem_put member with member | new
      · rw [parts, mapping]
        exact .inl (List.mem_map_of_mem member)
      · exact .inr ⟨n, literal, new, list⟩

theorem origin (settled : Settled g literals h) (whole : g.Whole document)
    (contains : h.Contains document w) : Origin g document h w := by
  induction contains using Relation.ReflTransGen.head_induction_on with
  | refl => exact .kept (.refl g document)
  | head part _ above =>
    cases above with
    | scalar s => cases part
    | kept contains =>
      rcases settled.part_cases whole contains part with part | ⟨n, literal, rfl, list⟩
      · exact .kept (contains.trans (.of_part part))
      · exact .list list
    | list node =>
      rw [IsPart, parts_of_list node] at part
      obtain rfl := List.mem_singleton.mp part
      exact .scalar _

/-- Literals bring no value into itself. -/
theorem ends (settled : Settled g literals h) (whole : g.Whole document)
    (contains : g.Contains document v) (ends : Acc g.IsPart v) : Acc h.IsPart v := by
  induction ends with
  | intro v _ ih =>
    refine ⟨v, fun w part => ?_⟩
    rcases settled.part_cases whole contains part with part | ⟨n, literal, rfl, list⟩
    · exact ih w part (contains.trans (.of_part part))
    · refine ⟨_, fun u part => ?_⟩
      rw [IsPart, parts_of_list list] at part
      obtain rfl := List.mem_singleton.mp part
      exact ⟨_, nofun⟩

theorem exists_unfolds (settled : Settled g literals h) (unshared : g.Unshared document)
    (whole : g.Whole document) : ∃ t, h.Unfolds document t := by
  have start := Contains.refl g document
  refine Graph.exists_unfolds (settled.ends whole start (unshared.ends start)) fun w contains => ?_
  have present : ∀ id : Nat, id < h.nodes.size → h.shape (.node id) ≠ .missing := by
    intro id bound
    rw [shape, Array.getElem?_eq_getElem bound]
    cases h.nodes[id] <;> simp [Node.shape]
  cases settled.origin whole contains with
  | scalar s => simp [shape]
  | kept contains =>
    cases w with
    | scalar s => simp [shape]
    | node id => exact present id (Nat.lt_of_lt_of_le (whole id contains) settled.size)
  | list node => exact present _ (Array.getElem?_eq_some_iff.mp node).1

/-- Two graphs that are settled for the same literals hold copies of the document. -/
theorem isCopy (settled' : Settled g literals h') (settled : Settled g literals h)
    (whole : g.Whole document) : IsCopy h' h (Twin g document h' h) where
  scalar := .scalar
  shape v' v twin := by
    cases twin with
    | scalar s => rfl
    | list node' node => rw [shape, shape, node', node]
    | kept contains =>
      cases v' with
      | scalar s => rfl
      | node id =>
        cases here : literals id with
        | none =>
          have bound := whole id contains
          rw [shape, shape, settled'.kept id bound here, settled.kept id bound here]
        | some literal =>
          obtain ⟨fields, n, mapping, -, written, -⟩ := settled.written id literal here
          obtain ⟨fields', n', mapping', -, written', -⟩ := settled'.written id literal here
          cases mapping.symm.trans mapping'
          rw [shape, shape, written', written]
          simp [Node.shape, Entries.keys_put]
  parts v' v twin := by
    cases twin with
    | scalar s => exact .nil
    | list node' node =>
      rw [parts_of_list node', parts_of_list node]
      exact .cons (.scalar _) .nil
    | kept contains =>
      cases v' with
      | scalar s => exact .nil
      | node id =>
        have below : List.Forall₂ (Twin g document h' h) (g.parts (.node id)) (g.parts (.node id)) :=
          List.forall₂_same.mpr fun u part => .kept (contains.trans (.of_part part))
        cases here : literals id with
        | none =>
          have bound := whole id contains
          rw [parts, parts, settled'.kept id bound here, settled.kept id bound here]
          exact below
        | some literal =>
          obtain ⟨fields, n, mapping, -, written, list⟩ := settled.written id literal here
          obtain ⟨fields', n', mapping', -, written', list'⟩ := settled'.written id literal here
          cases mapping.symm.trans mapping'
          rw [parts, mapping] at below
          rw [parts, parts, written', written]
          exact Entries.forall₂_put _ (.list list' list) below

end Settled

end Graph

namespace Discriminator

/-- Carrying out the discriminators of a document that has them carried out already succeeds with the
same warnings, and the two documents that come out are written out alike. -/
theorem propagate_twice {g h : Graph} {document : Value} {warnings : List UnknownTarget}
    (unshared : g.Unshared document) (whole : g.Whole document)
    (success : propagate g document = ⟨warnings, .ok h⟩) :
    ∃ h' t, propagate h document = ⟨warnings, .ok h'⟩ ∧
      h.Unfolds document t ∧ h'.Unfolds document t := by
  have follows := follows_propagate unshared whole
  have start := Graph.Settles.refl g document
  have first := follows.run g start
  rw [success] at first
  cases writes : (plan g document).writes with
  | error s =>
    rw [Plan.carryOut, writes] at first
    cases first
  | ok ws =>
    have reached : (propagate g document).result = .ok h := by rw [success]
    have settles := follows.settles start reached
    have settled : g.Settled (lastLiteral ws) h := by
      have settled := settled_of_propagate unshared whole writes start (.refl g) reached
      simpa using settled
    have second : propagate h document = ⟨warnings, .ok (ws.foldl Write.carryOut h)⟩ := by
      rw [follows.run h settles, Plan.carryOut, writes, ← (Outcome.mk.inj first).1]
      rfl
    have settled' : g.Settled (lastLiteral ws) (ws.foldl Write.carryOut h) := by
      have settled' := settled_of_propagate unshared whole writes settles settled
        (congrArg Outcome.result second)
      simpa using settled'
    obtain ⟨t, unfolds⟩ := settled.exists_unfolds unshared whole
    exact ⟨_, t, second, unfolds,
      (settled'.isCopy settled whole).unfolds (.kept (.refl g document)) unfolds⟩

theorem rival_mappings_settle :
    (Graph.ofTree rivalMappings).1.Unshared (Graph.ofTree rivalMappings).2 ∧
    (Graph.ofTree rivalMappings).1.Whole (Graph.ofTree rivalMappings).2 ∧
    ∃ h h' t,
      propagate (Graph.ofTree rivalMappings).1 (Graph.ofTree rivalMappings).2 =
        ⟨[⟨.text "bird", "Bird"⟩], .ok h⟩ ∧
      propagate h (Graph.ofTree rivalMappings).2 = ⟨[⟨.text "bird", "Bird"⟩], .ok h'⟩ ∧
      h.Unfolds (Graph.ofTree rivalMappings).2 t ∧ h'.Unfolds (Graph.ofTree rivalMappings).2 t := by
  have unshared := Graph.unshared_ofTree rivalMappings
  have whole := Graph.whole_ofTree rivalMappings
  have warnings : (propagate (Graph.ofTree rivalMappings).1
      (Graph.ofTree rivalMappings).2).warnings = [⟨.text "bird", "Bird"⟩] := by decide +kernel
  obtain ⟨h, reached⟩ : ∃ h, (propagate (Graph.ofTree rivalMappings).1
      (Graph.ofTree rivalMappings).2).result = .ok h := Except.exists_ok (by decide +kernel)
  have success : propagate (Graph.ofTree rivalMappings).1 (Graph.ofTree rivalMappings).2 =
      ⟨[⟨.text "bird", "Bird"⟩], .ok h⟩ := by rw [← warnings, ← reached]
  obtain ⟨h', t, again, unfolds, unfolds'⟩ := propagate_twice unshared whole success
  exact ⟨unshared, whole, h, h', t, success, again, unfolds, unfolds'⟩

end Discriminator

end TypedClient
