import TypedClient.Proofs.Document.Pointer
import TypedClient.Proofs.Failure.Stops
import TypedClient.Proofs.Parameter.Dereference

/-!
# Entries of parameter lists that cannot be followed

Merging the parameters of a route and of its operation fails at a reference that is none to a component
parameter, or to one that there is not. The failure lies at the entry, by its number in the list of the
route or in that of the operation. The list of the route is one segment above that of the operation,
as no verb has a slash.
-/
namespace TypedClient

theorem Text.cutLast_append {c : Char} {text' : List Char} (last : c ∉ text') (text : List Char) :
    cutLast c (text ++ c :: text') = some (text, text') := by
  have none : cutLast c text' = none := by
    induction text' with
    | nil => rfl
    | cons d text' ih =>
      rw [List.mem_cons, not_or] at last
      rw [cutLast, ih last.2]
      exact if_neg (Ne.symm last.1)
  induction text with
  | nil => simp [cutLast, none]
  | cons d text ih => simp [cutLast, ih]

/-- Above a last segment without a slash stands what was before it. -/
theorem Pointer.parent_append {segment : String} (noSlash : '/' ∉ segment.toList) (base : String) :
    parent (base ++ "/" ++ segment) = base := by
  have split : (base ++ "/" ++ segment).toList = base.toList ++ '/' :: segment.toList := by simp
  rw [parent, split, Text.cutLast_append noSlash]
  exact String.ofList_toList

namespace Declaration

variable {g : Graph} {components v : Value} {p : String} {f : Failure}

/-- The value is a reference that cannot be followed, for the reason that the failure at the pointer
gives: it is none to a component parameter, or there is no such component. -/
inductive CannotFollow (g : Graph) (components v : Value) (p : String) : Failure → Prop
  | unsupported {ref : String} (stated : (g.fields v).field "$ref" = .text ref)
    (outside : ∀ name, Reference.parse? ref ≠ some ⟨.parameters, name⟩) :
    CannotFollow g components v p (.unsupportedReference ref (some p))
  | unresolved {ref name : String} (stated : (g.fields v).field "$ref" = .text ref)
    (parsed : Reference.parse? ref = some ⟨.parameters, name⟩)
    (missing : g.isMapping ((g.fields ((g.fields components).field "parameters")).field name) =
      false) :
    CannotFollow g components v p (.unresolvedReference ref (some p))

/-- A component that is not found is no mapping. -/
theorem component?_eq_none {name : String} (success : component? g components name = .ok none) :
    g.isMapping ((g.fields ((g.fields components).field "parameters")).field name) = false := by
  obtain ⟨sections, top, success⟩ := Except.bind_eq_ok success
  obtain ⟨parameters, listed, success⟩ := Except.bind_eq_ok success
  obtain rfl := Graph.fields_of_optionalEntries top
  obtain rfl := Graph.fields_of_optionalEntries listed
  simp only at success
  split at success
  · cases success
  · next other => exact Bool.eq_false_iff.mpr other

/-- If the stop is a failure, it is that the value cannot be followed. -/
def StopsAt (g : Graph) (components v : Value) (p : String) (s : Stop) : Prop :=
  ∀ f, s = .failure f → CannotFollow g components v p f

theorem StopsAt.malformed (m : Malformed) : StopsAt g components v p (.malformed m) := nofun

theorem StopsAt.failure (here : CannotFollow g components v p f) :
    StopsAt g components v p (.failure f) := by
  rintro _ ⟨⟩
  exact here

theorem stopsAt_dereference : StopsBy (StopsAt g components v p) (dereference g components p v) := by
  have found : ∀ name, StopsBy (StopsAt g components v p) (component? g components name) :=
    fun name => .bind (.optionalEntries .malformed g _) fun _ _ =>
      .bind (.optionalEntries .malformed g _) fun _ _ => .ok _
  unfold dereference
  split
  · exact .ok _
  · refine .bind (.entries .malformed g v) fun es entries => ?_
    refine .bind (.asReference .malformed _) fun ref stated => ?_
    have stated : (g.fields v).field "$ref" = .text ref := by
      rw [Graph.fields_of_entries entries]
      exact Value.asReference_eq_ok stated
    cases parsed : Reference.parse? ref with
    | none =>
      rw [Schema.component, parsed]
      exact .stop (.failure (.unsupported stated (by simp [parsed])))
    | some r =>
      rw [Schema.component, parsed]
      refine .bind (.ok r) fun r' same => ?_
      obtain rfl := Except.ok.inj same
      split
      · next other =>
        refine .stop (.failure (.unsupported stated fun name known => other ?_))
        rw [Option.some.inj (parsed.symm.trans known)]
      · next parameter =>
        have named : r = ⟨.parameters, r.name⟩ := by
          rw [← Decidable.not_not.mp parameter]
        refine .bind (found r.name) fun o missing => ?_
        split
        · exact .ok _
        · exact .stop (.failure (.unresolved stated (parsed.trans (congrArg some named))
            (component?_eq_none missing)))

theorem stopsAt_ofValue : StopsBy (StopsAt g components v p) (ofValue g components p v) :=
  .bind stopsAt_dereference fun w _ => .bind (.entries .malformed g w) fun _ _ =>
    .bind (.textOf .malformed g _) fun _ _ => .bind (.textOf .malformed g _) fun _ _ => .ok _

/-- A failure to declare the entries of a list is that of one of them, at its number. -/
theorem exists_cannotFollow_of_ofList {base : String} {vs : List Value}
    (failed : ofList g components base vs = fail f) :
    ∃ (n : Nat) (v : Value), vs[n]? = some v ∧
      CannotFollow g components v (base ++ "/parameters/" ++ toString n) f := by
  obtain ⟨before, ⟨v, n⟩, after, split, -, here⟩ := StopsBy.of_mapM failed
  have member : (v, n) ∈ vs.zipIdx := split ▸ List.mem_append_right _ List.mem_cons_self
  exact ⟨n, v, List.mem_zipIdx_iff_getElem?.mp member, stopsAt_ofValue _ here f rfl⟩

/-- A failure to merge lists is that of an entry of one of them, which lies above the pointer for the
first list and at the pointer for the second. -/
theorem exists_cannotFollow_of_merge {shared own : Result (List Value)}
    (ofShared : StopsBy (fun s => ∃ m, s = .malformed m) shared)
    (ofOwn : StopsBy (fun s => ∃ m, s = .malformed m) own)
    (failed : merge g components p shared own = fail f) :
    ∃ (base : String) (vs : List Value) (n : Nat) (v : Value),
      (shared = .ok vs ∧ base = Pointer.parent p ∨ own = .ok vs ∧ base = p) ∧
      vs[n]? = some v ∧ CannotFollow g components v (base ++ "/parameters/" ++ toString n) f := by
  rcases StopsBy.of_bind failed with stopped | ⟨vs, isShared, failed⟩
  · obtain ⟨m, ⟨⟩⟩ := ofShared _ stopped
  rcases StopsBy.of_bind failed with first | ⟨ds, -, failed⟩
  · obtain ⟨n, v, here, refused⟩ := exists_cannotFollow_of_ofList first
    exact ⟨_, vs, n, v, .inl ⟨isShared, rfl⟩, here, refused⟩
  rcases StopsBy.of_bind failed with stopped | ⟨vs', isOwn, failed⟩
  · obtain ⟨m, ⟨⟩⟩ := ofOwn _ stopped
  rcases StopsBy.of_bind failed with second | ⟨ds', -, finished⟩
  · obtain ⟨n, v, here, refused⟩ := exists_cannotFollow_of_ofList second
    exact ⟨_, vs', n, v, .inr ⟨isOwn, rfl⟩, here, refused⟩
  · cases finished

end Declaration

end TypedClient
