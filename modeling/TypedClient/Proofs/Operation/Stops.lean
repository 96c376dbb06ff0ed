import TypedClient.Proofs.Operation.Compilation
import TypedClient.Proofs.Schema.Sharing

/-!
# What stops the compilation of an operation

Most of what stops an operation lies in its document: a schema, a reference or a value of the wrong
shape. Any kind of stop that covers these covers the whole compilation, as soon as it covers what is
wrong with the placeholders of the route. So once the identifier of an operation has been claimed, no
stop is about identifiers any more.
-/
namespace TypedClient

/-- Whatever is wrong with a value, a schema or a reference in a document is a stop of this kind. -/
structure Stop.CoversDocuments (p : Stop → Prop) : Prop extends Schema.Admits p where
  cyclic : ∀ message pointer, p (.failure (.cyclicSchema message pointer))
  unresolved : ∀ ref pointer, p (.failure (.unresolvedReference ref pointer))

variable {g : Graph} {p : Stop → Prop} (covers : Stop.CoversDocuments p)

include covers

namespace Schema

theorem stopsBy_resolve_of_covers (v : Value) (pointer : String) :
    StopsBy p (resolve g v pointer) :=
  stopsBy_resolve covers.toAdmits covers.cyclic g v pointer

end Schema

open Schema (stopsBy_resolve_of_covers)

namespace Payload

theorem stopsBy_ofContent (content : Entries) (pointer : String) :
    StopsBy p (Contribution.ofContent g content pointer) := by
  unfold Contribution.ofContent
  split
  · exact .ok _
  · simp only
    split
    · exact .ok _
    · exact .bind (stopsBy_resolve_of_covers covers _ _) fun _ _ => .ok _

theorem stopsBy_ofItem? (pointer : String) (item : Value) :
    StopsBy p (Contribution.ofItem? g pointer item) := by
  unfold Contribution.ofItem?
  split
  · exact .ok _
  · refine .bind (.entries covers.malformed g _) fun es _ => ?_
    split
    · exact .bind (Schema.stopsBy_resolveReference covers.toAdmits pointer) fun _ _ => .ok _
    · refine .bind (.optionalEntries covers.malformed g _) fun content _ => ?_
      exact .bind (stopsBy_ofContent covers content pointer) fun _ _ => .ok _

theorem stopsBy_ofItems (items : List (String × Value)) : StopsBy p (ofItems g items) :=
  .bind (.mapM fun item _ => stopsBy_ofItem? covers item.1 item.2) fun _ _ => .ok _

end Payload

namespace Declaration

variable {components : Value}

theorem stopsBy_dereference (pointer : String) (v : Value) :
    StopsBy p (dereference g components pointer v) := by
  have found : ∀ name, StopsBy p (component? g components name) := fun name =>
    .bind (.optionalEntries covers.malformed g _) fun _ _ =>
      .bind (.optionalEntries covers.malformed g _) fun _ _ => .ok _
  unfold dereference
  split
  · exact .ok _
  · refine .bind (.entries covers.malformed g v) fun es _ => ?_
    refine .bind (.asReference covers.malformed _) fun text _ => ?_
    refine .bind (Schema.stopsBy_component covers.toAdmits _ _) fun r _ => ?_
    split
    · exact .stop (covers.unsupported _ _)
    · refine .bind (found r.name) fun o _ => ?_
      split
      · exact .ok _
      · exact .stop (covers.unresolved _ _)

theorem stopsBy_ofList (base : String) (vs : List Value) :
    StopsBy p (ofList g components base vs) := by
  refine .mapM fun e _ => .bind (stopsBy_dereference covers _ _) fun v _ => ?_
  refine .bind (.entries covers.malformed g v) fun es _ => ?_
  refine .bind (.textOf covers.malformed g _) fun name _ => ?_
  exact .bind (.textOf covers.malformed g _) fun place _ => .ok _

theorem stopsBy_merge {pointer : String} {shared own : Result (List Value)}
    (ofShared : StopsBy p shared) (ofOwn : StopsBy p own) :
    StopsBy p (merge g components pointer shared own) := by
  refine .bind ofShared fun _ _ => .bind (stopsBy_ofList covers _ _) fun _ _ => ?_
  exact .bind ofOwn fun _ _ => .bind (stopsBy_ofList covers _ _) fun _ _ => .ok _

end Declaration

namespace Parameter

theorem stopsBy_ofFields (pointer : String) (name : Option String) (es : Entries) :
    StopsBy p (ofFields g pointer name es) := by
  have resolves := stopsBy_resolve_of_covers (g := g) covers
  unfold ofFields
  simp only
  split
  · exact .bind (.ok _) fun _ _ => .bind (resolves _ _) fun _ _ => .ok _
  · refine .bind (.textOf covers.malformed g _) fun _ _ => ?_
    exact .bind (resolves _ _) fun _ _ => .ok _
  · exact .bind (.ok _) fun _ _ => .bind (resolves _ _) fun _ _ => .ok _

theorem stopsBy_ofQuery (pointer : String) (ds : List Declaration) :
    StopsBy p (ofQuery g pointer ds) :=
  .bind (.mapM fun _ _ => stopsBy_ofFields covers _ _ _) fun _ _ => .ok _

theorem stopsBy_implementation (parameter : Parameter) :
    StopsBy p (implementation g parameter) := by
  unfold implementation
  split
  · split
    · exact .ok _
    · exact .stop (covers.malformed _)
    · exact .stop (covers.malformed _)
    · exact .stop (covers.malformed _)
  · exact .ok _

end Parameter

namespace Operation

variable {slot : Slot}

theorem stopsBy_queryParameter? (pointer : String) (query : List Declaration) :
    StopsBy p (queryParameter? g pointer query) := by
  unfold queryParameter?
  split
  · exact .ok _
  · exact (Parameter.stopsBy_ofQuery covers pointer query).map _

theorem stopsBy_successPayload (pointer : String) (responses : Entries) :
    StopsBy p (successPayload g pointer responses) := by
  refine .bind (Payload.stopsBy_ofItems covers _) fun payload _ => ?_
  split
  · exact .ok _
  · exact .stop (covers.malformed _)

theorem stopsBy_summary? (es : Entries) : StopsBy p (summary? g es) := by
  unfold summary?
  simp only
  split
  · exact (StopsBy.textOf covers.malformed g _).map _
  · exact .ok _

/-- Beside its document, an operation whose identifier has been claimed is stopped by the placeholders
of its route only. -/
theorem stopsBy_compileClaimed (shared : StopsBy p slot.shared) {es : Entries} {id : Scalar}
    (placeholders : ∀ route name declared, (Value.scalar slot.route).asRoute = .ok route →
      (Value.scalar id).asName = .ok name →
      Declaration.merge g slot.components (place route slot) slot.shared
        (g.optionalElements (es.field "parameters")) = .ok declared →
      StopsBy p ((placeholders slot.verb route).mapM
        (pathParameter g (place route slot) name declared))) :
    StopsBy p (compileClaimed g slot es id) := by
  unfold compileClaimed
  refine .bind (.asRoute covers.malformed _) fun route called => ?_
  refine .bind (.asName covers.malformed _) fun name named => ?_
  have own := StopsBy.optionalElements covers.malformed g (es.field "parameters")
  refine .bind (Declaration.stopsBy_merge covers shared own) fun declared merged => ?_
  refine .bind (placeholders route name declared called named merged) fun inPath _ => ?_
  refine .bind (Payload.stopsBy_ofItems covers _) fun request _ => ?_
  refine .bind (stopsBy_queryParameter? covers _ _) fun inQuery _ => ?_
  refine .bind (.optionalEntries covers.malformed g _) fun responses _ => ?_
  refine .bind (stopsBy_successPayload covers _ _) fun success _ => ?_
  refine .bind (stopsBy_summary? covers es) fun comment _ => ?_
  exact .bind (.mapM fun _ _ => Parameter.stopsBy_implementation covers _) fun arguments _ => .ok _

/-- An operation is stopped by its identifier or after it has been claimed. -/
theorem stopsBy_compile {claimed : List Scalar}
    (missing : ∀ verb route, p (.failure (.missingOperationId verb route)))
    (duplicate : ∀ id, p (.failure (.duplicateOperationId id)))
    (after : ∀ id, StopsBy p (compileClaimed g slot (g.fields slot.operation) id)) :
    StopsBy p (compile g slot claimed).1 := by
  have claims : ∀ es, StopsBy p (claim g slot es claimed) := by
    intro es
    unfold claim
    simp only
    split
    · exact .bind (.scalarTextOf covers.malformed _) fun _ _ => .stop (missing _ _)
    · refine .bind ?_ fun id _ => ?_
      · unfold Graph.comparable
        split
        · exact .ok _
        · exact .stop (covers.malformed _)
      · split
        · exact .bind (.scalarTextOf covers.malformed _) fun _ _ => .stop (duplicate _)
        · exact .ok _
  unfold compile
  split
  · next s stopped => exact .stop (StopsBy.entries covers.malformed g _ s stopped)
  · next es entries =>
    split
    · next s stopped => exact .stop (claims es s stopped)
    · next id _ => exact Graph.fields_of_entries entries ▸ after id

end Operation

omit covers

/-! ### Stops that are not about identifiers -/

/-- The stop is not about the identifier of an operation. -/
def Stop.Elsewhere : Stop → Prop
  | .failure (.missingOperationId _ _) | .failure (.duplicateOperationId _) => False
  | _ => True

theorem Stop.coversDocuments_elsewhere : Stop.CoversDocuments Stop.Elsewhere :=
  ⟨⟨fun _ => trivial, fun _ _ => trivial, fun _ _ => trivial⟩, fun _ _ => trivial,
    fun _ _ => trivial⟩

/-- What stops an operation whose identifier has been claimed is not about identifiers. -/
theorem Operation.elsewhere_compileClaimed {slot : Slot} (shared : StopsBy Stop.Elsewhere slot.shared)
    (es : Entries) (id : Scalar) : StopsBy Stop.Elsewhere (compileClaimed g slot es id) := by
  have covers := Stop.coversDocuments_elsewhere
  refine stopsBy_compileClaimed covers shared fun _ _ _ _ _ _ => .mapM fun name _ => ?_
  unfold pathParameter
  split
  · exact Parameter.stopsBy_ofFields covers _ _ _
  · exact .stop trivial

end TypedClient
