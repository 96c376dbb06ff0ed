import TypedClient.Proofs.Operation.References
import TypedClient.Proofs.Operation.Stops
import TypedClient.Proofs.Parameter.Place
import TypedClient.Proofs.Route.Pieces

/-!
# Placeholders of routes

Each placeholder of a route becomes a parameter of the method, in the order of the route and whatever
the verb, and an interpolation of the call. Only `delete` calls the route without the placeholder that
ends it. The first placeholder that no parameter in the path is declared for stops the operation.
-/
namespace TypedClient.Operation

open Route (Piece written)

variable {g : Graph} {slot : Slot} {o : Operation}

/-! ### The route that is called -/

section Called

variable {ps : List Piece} {verb : String}

/-- `delete` calls a route without the placeholder that ends it and the slash before that. -/
theorem calledRoute_trailing {name : String} (plain : ∀ p ∈ ps, p.IsPlain)
    (last : (Piece.placeholder name).IsPlain) :
    calledRoute "delete" (String.ofList (written (ps ++ [.char '/', .placeholder name]))) =
      (written ps, some name) := by
  rw [calledRoute, if_pos rfl, String.toList_ofList, Route.trailing?_written_concat plain last]
  simp only [String.ofList_toList]

theorem calledRoute_whole (plain : ∀ p ∈ ps, p.IsPlain) (ends : (written ps).getLast? ≠ some '\n')
    (whole : verb ≠ "delete" ∨ ∀ before name, ps ≠ before ++ [.char '/', .placeholder name]) :
    calledRoute verb (String.ofList (written ps)) = (written ps, none) := by
  rw [calledRoute, String.toList_ofList]
  split
  · next delete =>
    rw [Route.trailing?_written_eq_none plain (Route.ne_concat_break ends)
      (whole.resolve_left (not_not_intro delete))]
  · rfl

/-- No verb loses a placeholder of the route. -/
theorem placeholders_written (plain : ∀ p ∈ ps, p.IsPlain)
    (ends : (written ps).getLast? ≠ some '\n') :
    placeholders verb (String.ofList (written ps)) = ps.filterMap Piece.name? := by
  unfold placeholders Route.placeholders
  by_cases trailing : verb = "delete" ∧ ∃ before name, ps = before ++ [.char '/', .placeholder name]
  · obtain ⟨rfl, before, name, rfl⟩ := trailing
    simp only [List.forall_mem_append, List.forall_mem_cons] at plain
    rw [calledRoute_trailing plain.1 plain.2.2.1, Route.pieces_written plain.1,
      List.filterMap_append]
    rfl
  · have whole : verb ≠ "delete" ∨ ∀ before name, ps ≠ before ++ [.char '/', .placeholder name] := by
      by_contra none
      push Not at none
      exact trailing none
    rw [calledRoute_whole plain ends whole, Route.pieces_written plain]
    exact List.append_nil _

end Called

/-! ### The parameters of placeholders -/

/-- A parameter in the path is declared under this name. -/
def IsDeclared (g : Graph) (ds : List Declaration) (name : String) : Prop :=
  ∃ d ∈ ds, d.isIn g "path" = true ∧ d.name = name

/-- The parameter is compiled from the one declaration of its name in the path, under the identifier
of the placeholder. -/
def IsBuiltFrom (g : Graph) (ds : List Declaration) (pointer name : String) (p : Parameter) : Prop :=
  ∃ d, (∀ e, e ∈ ds ∧ e.isIn g "path" = true ∧ e.name = name ↔ e = d) ∧
    Parameter.ofFields g (pointer ++ "/parameters/" ++ name)
      (some (Naming.placeholderIdentifier name)) d.fields = .ok p

section Declared

variable {ds : List Declaration} {pointer id name : String} {param : Parameter}

theorem isDeclared_of_pathParameter (success : pathParameter g pointer id ds name = .ok param) :
    IsDeclared g ds name := by
  obtain ⟨d, member, here, named, -⟩ := exists_declaration_of_pathParameter success
  exact ⟨d, member, here, named⟩

theorem pathParameter_anywhere (success : pathParameter g pointer id ds name = .ok param)
    (pointer' id' : String) : pathParameter g pointer' id' ds name = .ok param := by
  unfold pathParameter at success ⊢
  split at success
  · exact Parameter.ofFields_anywhere success _
  · cases success

theorem isBuiltFrom_of_pathParameter {components : Value} {q : String}
    {shared own : Result (List Value)}
    (merged : Declaration.merge g components q shared own = .ok ds)
    (success : pathParameter g pointer id ds name = .ok param) :
    IsBuiltFrom g ds pointer name param := by
  obtain ⟨d, member, here, named, compiled⟩ := exists_declaration_of_pathParameter success
  refine ⟨d, fun e => ⟨fun other => ?_, ?_⟩, compiled⟩
  · exact Declaration.eq_of_isIn merged other.1 member other.2.1 here (other.2.2.trans named.symm)
  · rintro rfl
    exact ⟨member, here, named⟩

/-- A placeholder is missing a parameter if none is declared for it. -/
theorem not_isDeclared_of_missing {name' id' : String}
    (missing : pathParameter g pointer id ds name = fail (.missingPathParameter name' id')) :
    name' = name ∧ id' = id ∧ ¬IsDeclared g ds name := by
  have covers : Stop.CoversDocuments fun s => ∀ n i, s ≠ .failure (.missingPathParameter n i) :=
    ⟨⟨nofun, nofun, nofun⟩, nofun, nofun⟩
  unfold pathParameter at missing
  split at missing
  · exact absurd rfl (Parameter.stopsBy_ofFields covers _ _ _ _ missing _ _)
  · next none =>
    cases missing
    refine ⟨rfl, rfl, ?_⟩
    rintro ⟨d, member, here, named⟩
    have absent := List.find?_eq_none.mp none d (List.mem_reverse.mpr member)
    simp [here, named] at absent

end Declared

/-- For every verb under which the placeholders of a route are the same, so are their parameters. -/
theorem Parts.Of.inPath_eq {verb verb' : String} {es : Entries} {o o' : Operation}
    {parts parts' : Parts} (made : parts.Of g { slot with verb := verb } es o)
    (made' : parts'.Of g { slot with verb := verb' } es o')
    (same : placeholders verb parts.route = placeholders verb' parts.route) :
    parts'.inPath = parts.inPath := by
  have routes : parts'.route = parts.route := Except.ok.inj (made'.route.symm.trans made.route)
  have declared : parts'.declared = parts.declared :=
    Except.ok.inj (made'.declared.symm.trans (Declaration.merge_anywhere made.declared _))
  have inPath := Except.mapM_of_mapM (fun _ _ here => pathParameter_anywhere here
    (place parts.route { slot with verb := verb' }) o'.id) made.inPath
  have inPath' := made'.inPath
  simp only [routes, declared] at inPath'
  simp only [same] at inPath
  exact Except.ok.inj (inPath'.symm.trans inPath)

/-- The name is the first of the route, as the verb calls it, for which no parameter is declared in the
path. -/
def IsFirstMissing (g : Graph) (slot : Slot) (name : String) : Prop :=
  ∃ route ds before after, slot.route = .text route ∧ declared g slot = .ok ds ∧
    placeholders slot.verb route = before ++ name :: after ∧
    (∀ earlier ∈ before, IsDeclared g ds earlier) ∧ ¬IsDeclared g ds name

theorem isFirstMissing_of_compile {claimed : List Scalar} {name id : String}
    (shared : StopsBy (fun s => ∃ m, s = .malformed m) slot.shared)
    (missing : (compile g slot claimed).1 = fail (.missingPathParameter name id)) :
    IsFirstMissing g slot name := by
  have covers : Stop.CoversDocuments fun s =>
      ∀ n i, s = .failure (.missingPathParameter n i) → IsFirstMissing g slot n :=
    ⟨⟨nofun, nofun, nofun⟩, nofun, nofun⟩
  refine stopsBy_compile covers nofun nofun (fun claimedId => ?_) _ missing name id rfl
  refine stopsBy_compileClaimed covers (fun s stopped n i => ?_)
    fun route own ds called _ merged => ?_
  · obtain ⟨m, rfl⟩ := shared s stopped
    nofun
  · intro s stopped n i same
    obtain ⟨before, x, after, names, declaredBefore, here⟩ := StopsBy.of_mapM stopped
    obtain ⟨rfl, -, absent⟩ := not_isDeclared_of_missing (same ▸ here)
    refine ⟨route, ds, before, after, Value.scalar.inj (Value.asRoute_eq_ok called), ?_, names, fun earlier among => ?_, absent⟩
    · rw [declared, called, Except.ok_bind]
      exact merged
    · obtain ⟨param, success⟩ := declaredBefore earlier among
      exact isDeclared_of_pathParameter success

section Compiled

variable {ps : List Piece} (plain : ∀ p ∈ ps, p.IsPlain)
  (routed : slot.route = .text (String.ofList (written ps)))
  (ends : (written ps).getLast? ≠ some '\n')

include routed

theorem route_of_parts {parts : Parts} {verb : String} {es : Entries}
    (made : parts.Of g { slot with verb := verb } es o) :
    parts.route = String.ofList (written ps) :=
  Scalar.text.inj ((Value.scalar.inj (Value.asRoute_eq_ok made.route)).symm.trans routed)

include plain ends

/-- The parameters in the path are the same for every verb, one for each placeholder. -/
theorem exists_inPath : ∃ inPath : List Parameter, ∀ verb claimed o,
    (compile g { slot with verb := verb } claimed).1 = .ok o →
      ∃ parts : Parts, parts.Of g { slot with verb := verb } (g.fields slot.operation) o ∧
        parts.inPath = inPath ∧
        List.Forall₂ (IsBuiltFrom g parts.declared (place parts.route { slot with verb := verb }))
          (ps.filterMap Piece.name?) inPath := by
  by_cases some : ∃ verb claimed o, (compile g { slot with verb := verb } claimed).1 = .ok o
  · obtain ⟨verb₀, claimed₀, o₀, success₀⟩ := some
    obtain ⟨parts₀, made₀⟩ := exists_parts_of_compile success₀
    refine ⟨parts₀.inPath, fun verb claimed o success => ?_⟩
    obtain ⟨parts, made⟩ := exists_parts_of_compile success
    have same : parts.inPath = parts₀.inPath := made₀.inPath_eq made <| by
      rw [route_of_parts routed made₀, placeholders_written plain ends,
        placeholders_written plain ends]
    have built := forall₂_of_mapM made.inPath
    rw [same, route_of_parts routed made, placeholders_written plain ends] at built
    refine ⟨parts, made, same, built.imp fun _ _ here => ?_⟩
    rw [route_of_parts routed made]
    exact isBuiltFrom_of_pathParameter made.declared here
  · exact ⟨[], fun verb claimed o success => absurd ⟨verb, claimed, o, success⟩ some⟩

/-- The route that is called is the route with its placeholders as interpolations. -/
theorem route_eq {verb : String} {claimed : List Scalar}
    (success : (compile g { slot with verb := verb } claimed).1 = .ok o) :
    (∀ before name, verb = "delete" → ps = before ++ [.char '/', .placeholder name] →
      o.route = String.ofList (before.flatMap Piece.template)) ∧
    ((verb ≠ "delete" ∨ ∀ before name, ps ≠ before ++ [.char '/', .placeholder name]) →
      o.route = String.ofList (ps.flatMap Piece.template)) := by
  obtain ⟨parts, made⟩ := exists_parts_of_compile success
  rw [made.template, route_of_parts routed made, Route.template]
  constructor
  · rintro before name rfl rfl
    simp only [List.forall_mem_append, List.forall_mem_cons] at plain
    rw [calledRoute_trailing plain.1 plain.2.2.1, Route.pieces_written plain.1]
  · intro whole
    rw [calledRoute_whole plain ends whole, Route.pieces_written plain]

end Compiled

/-- On a route of plain pieces the parameters in the path are, for any verb, those of its placeholders
from left to right, each built from the one declaration of that name in the path. In the call each
placeholder is an interpolation of its identifier and everything else stays; only `delete` leaves out
a placeholder that ends the route, with the slash before it. If a parameter is missing, it is that of
the first placeholder for which none is declared in the path. -/
theorem placeholders_become_parameters {ps : List Piece} (plain : ∀ p ∈ ps, p.IsPlain)
    (routed : slot.route = .text (String.ofList (written ps)))
    (ends : (written ps).getLast? ≠ some '\n')
    (shared : StopsBy (fun s => ∃ m, s = .malformed m) slot.shared) :
    (∃ inPath : List Parameter, ∀ verb claimed o,
      (compile g { slot with verb := verb } claimed).1 = .ok o →
        (∃ parts : Parts, parts.Of g { slot with verb := verb } (g.fields slot.operation) o ∧
          o.parameters = Parameter.sort
            (inPath ++ (bodyParameter? parts.request).toList ++ parts.inQuery.toList) ∧
          List.Forall₂
            (IsBuiltFrom g parts.declared (place parts.route { slot with verb := verb }))
            (ps.filterMap Piece.name?) inPath) ∧
        (∀ before name, verb = "delete" → ps = before ++ [.char '/', .placeholder name] →
          o.route = String.ofList (before.flatMap Piece.template)) ∧
        ((verb ≠ "delete" ∨ ∀ before name, ps ≠ before ++ [.char '/', .placeholder name]) →
          o.route = String.ofList (ps.flatMap Piece.template))) ∧
    ∀ verb claimed name id,
      (compile g { slot with verb := verb } claimed).1 = fail (.missingPathParameter name id) →
        ∃ ds before after, declared g { slot with verb := verb } = .ok ds ∧
          ps.filterMap Piece.name? = before ++ name :: after ∧
          (∀ earlier ∈ before, IsDeclared g ds earlier) ∧ ¬IsDeclared g ds name := by
  constructor
  · obtain ⟨inPath, each⟩ := exists_inPath (g := g) plain routed ends
    refine ⟨inPath, fun verb claimed o success => ⟨?_, route_eq plain routed ends success⟩⟩
    obtain ⟨parts, made, rfl, built⟩ := each verb claimed o success
    exact ⟨parts, made, made.parameters, built⟩
  · intro verb claimed name id missing
    have first : IsFirstMissing g { slot with verb := verb } name :=
      isFirstMissing_of_compile shared missing
    obtain ⟨route, ds, before, after, text, stated, names, declaredBefore, absent⟩ := first
    obtain rfl : route = String.ofList (written ps) := Scalar.text.inj (text.symm.trans routed)
    rw [placeholders_written plain ends] at names
    exact ⟨ds, before, after, stated, names, declaredBefore, absent⟩

/-- Pets of owners: an operation for one of them, with the parameters that it needs, and one that
declares only the pet. -/
def petOfOwnerGraph : Graph :=
  ⟨#[.mapping [(.text "operationId", .text "petOfOwner"), (.text "parameters", .node 1)],
     .list [.node 4, .node 5],
     .mapping [(.text "operationId", .text "petOfNobody"), (.text "parameters", .node 3)],
     .list [.node 4],
     .mapping [(.text "name", .text "petId"), (.text "in", .text "path"),
       (.text "required", .scalar (.bool true))],
     .mapping [(.text "name", .text "owner-id"), (.text "in", .text "path"),
       (.text "required", .scalar (.bool true)), (.text "schema", .node 6)],
     .mapping [(.text "type", .text "integer")]]⟩

def petOfOwnerRoute : List Piece :=
  "/owners/".toList.map .char ++ [.placeholder "owner-id"] ++ "/pets".toList.map .char ++
    [.char '/', .placeholder "petId"]

def petOfOwnerSlot (operation : NodeId) : Slot :=
  ⟨"", .text "/owners/{owner-id}/pets/{petId}", .node operation, .ok [], .null⟩

/-- `delete` takes the same two parameters as `get` and calls the route without the second one. An
operation that does not declare the owner is stopped by its placeholder. -/
theorem pet_is_deleted_with_its_owner :
    (∀ p ∈ petOfOwnerRoute, p.IsPlain) ∧
    (∃ o o', (compile petOfOwnerGraph { petOfOwnerSlot 0 with verb := "get" } []).1 = .ok o ∧
      (compile petOfOwnerGraph { petOfOwnerSlot 0 with verb := "delete" } []).1 = .ok o' ∧
      o.parameters.map (·.name) = ["ownerId", "petId"] ∧ o'.parameters = o.parameters ∧
      o.route = "/owners/${ownerId}/pets/${petId}" ∧ o'.route = "/owners/${ownerId}/pets") ∧
    ∃ ds, declared petOfOwnerGraph { petOfOwnerSlot 2 with verb := "get" } = .ok ds ∧
      ¬IsDeclared petOfOwnerGraph ds "owner-id" := by
  have plain : ∀ p ∈ petOfOwnerRoute, p.IsPlain := by decide
  have ends : (written petOfOwnerRoute).getLast? ≠ some '\n' := by decide
  have routed : Scalar.text "/owners/{owner-id}/pets/{petId}" =
      .text (String.ofList (written petOfOwnerRoute)) := by decide
  refine ⟨plain, ?_, ?_⟩
  · have evaluated : ((compile petOfOwnerGraph { petOfOwnerSlot 0 with verb := "get" } []).1.toOption.map
        (·.parameters.map (·.name))) = some ["ownerId", "petId"] := by decide +kernel
    obtain ⟨o, success, names⟩ := Except.exists_of_map_toOption evaluated
    have alike : ((compile petOfOwnerGraph { petOfOwnerSlot 0 with verb := "delete" } []).1.toOption.map
        (·.parameters)) = (compile petOfOwnerGraph
          { petOfOwnerSlot 0 with verb := "get" } []).1.toOption.map (·.parameters) := by
      decide +kernel
    rw [success] at alike
    obtain ⟨o', success', same⟩ := Except.exists_of_map_toOption alike
    obtain ⟨⟨inPath, each⟩, -⟩ := @placeholders_become_parameters petOfOwnerGraph (petOfOwnerSlot 0)
      _ plain routed ends (.ok _)
    refine ⟨o, o', success, success', names, same, ?_, ?_⟩
    · rw [(each "get" [] o success).2.2 (.inl (by decide))]
      decide
    · rw [(each "delete" [] o' success').2.1 _ _ rfl rfl]
      decide
  · obtain ⟨-, missing⟩ := @placeholders_become_parameters petOfOwnerGraph (petOfOwnerSlot 2)
      _ plain routed ends (.ok _)
    obtain ⟨ds, before, after, stated, -, -, absent⟩ :=
      missing "get" [] "owner-id" "petOfNobody" (by decide +kernel)
    exact ⟨ds, stated, absent⟩

end TypedClient.Operation
