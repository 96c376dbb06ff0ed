import TypedClient.Proofs.Naming.Letters
import TypedClient.Proofs.Operation.Invocation
import TypedClient.Proofs.Operation.Placeholders
import TypedClient.Proofs.Operation.Signature

/-!
# Variables of a call

The call that a method makes uses the parameters of the method and nothing else: those of the path in
the address, the one of the body as what is sent and the one of the query as `params`. It uses all of
them but the one that `delete` cuts off the route.
-/
namespace TypedClient.Operation

/-- A variable where a call uses it. -/
inductive Variable where
  | interpolated (name : String)
  /-- The variable is sent as the body. -/
  | sent (name : String)
  | params
  deriving DecidableEq, Repr

def CallOption.variables : CallOption → List Variable
  | .data name => [.sent name]
  | .params => [.params]
  | .accept _ => []

/-- The variables that an argument uses. -/
def Argument.variables : Argument → List Variable
  | .address pieces =>
    (pieces.filterMap Route.Piece.name?).map fun name =>
      .interpolated (Naming.placeholderIdentifier name)
  | .body name => [.sent name]
  | .undefined => []
  | .options os => os.flatMap CallOption.variables

/-- Wherever a verb puts the body, the call uses the address, the body and the query in this order. -/
theorem variables_argumentsOf (takesBody : Bool) (pieces : List Route.Piece)
    (body : Option Parameter) (hasQuery : Bool) (accept : Option MediaType) :
    (argumentsOf takesBody pieces body (optionsOf takesBody body hasQuery accept)).flatMap
        Argument.variables =
      (pieces.filterMap Route.Piece.name?).map
          (fun name => .interpolated (Naming.placeholderIdentifier name)) ++
        body.toList.map (fun b => .sent b.name) ++ if hasQuery then [.params] else [] := by
  unfold argumentsOf optionsOf
  cases takesBody <;> cases body <;> cases hasQuery <;> cases accept <;>
    simp [Argument.variables, CallOption.variables]

variable {g : Graph} {slot : Slot} {o : Operation}

/-- A verb calls the whole route, or it is `delete` and cuts off the placeholder that ends it. -/
theorem calledRoute_cases (verb route : String) :
    calledRoute verb route = (route.toList, none) ∨
      verb = "delete" ∧ ∃ before name, Route.trailing? route.toList = some (before, name) ∧
        calledRoute verb route = (before, some (String.ofList name)) := by
  unfold calledRoute
  split
  · next delete =>
    cases cut : Route.trailing? route.toList with
    | none => exact .inl rfl
    | some found => exact .inr ⟨delete, found.1, found.2, rfl, rfl⟩
  · exact .inl rfl

/-- The placeholders of the route as it is called are placeholders of the route. -/
theorem mem_placeholders_of_called {verb route name : String}
    (member : name ∈ Route.placeholders (calledRoute verb route).1) :
    name ∈ Route.placeholders route.toList := by
  rcases calledRoute_cases verb route with whole | ⟨-, before, last, cut, called⟩
  · rwa [whole] at member
  · rw [called] at member
    obtain ⟨rest, text, -⟩ := Route.trailing?_eq_some cut
    rw [text]
    exact Route.mem_placeholders_append _ member

theorem name_of_pathParameter {pointer id name : String} {ds : List Declaration} {p : Parameter}
    (success : pathParameter g pointer id ds name = .ok p)
    (named : Naming.placeholderIdentifier name ≠ "") :
    p.name = Naming.placeholderIdentifier name := by
  obtain ⟨d, -, -, -, compiled⟩ := exists_declaration_of_pathParameter success
  exact Parameter.name_of_ofFields compiled named

/-- There is a parameter for the query, `params`, if one in the query is declared. -/
theorem queryParameter?_eq_ok {pointer : String} {ds : List Declaration} {query : Option Parameter}
    (success : queryParameter? g pointer (ds.filter (Declaration.isIn g "query")) = .ok query) :
    query.isSome = ds.any (Declaration.isIn g "query") ∧ ∀ q ∈ query, q.name = "params" := by
  unfold queryParameter? at success
  rw [← not_isEmpty_filter]
  split at success
  · next empty =>
    cases success
    exact ⟨by rw [empty]; rfl, nofun⟩
  · next nonempty =>
    obtain ⟨q, compiled, same⟩ := Except.bind_eq_ok success
    cases same
    obtain ⟨members, -, same⟩ := Except.bind_eq_ok compiled
    cases same
    refine ⟨by rw [Bool.not_eq_true] at nonempty; rw [nonempty]; rfl, ?_⟩
    rintro q ⟨⟩
    rfl

/-- The parameters in the path are those whose placeholders are called and the one that is cut off. -/
theorem Parts.Of.exists_kept {parts : Parts} {es : Entries} (made : parts.Of g slot es o)
    (named : ∀ name ∈ Route.placeholders parts.route.toList, Naming.placeholderIdentifier name ≠ "") :
    ∃ kept removed : List Parameter, parts.inPath = kept ++ removed ∧
      kept.map (·.name) = (Route.placeholders (calledRoute slot.verb parts.route).1).map
        Naming.placeholderIdentifier ∧
      List.Forall₂ (fun p name =>
          pathParameter g (place parts.route slot) o.id parts.declared name = .ok p)
        removed (calledRoute slot.verb parts.route).2.toList := by
  have built := (forall₂_of_mapM made.inPath).flip
  refine ⟨_, _, (List.take_append_drop
    (Route.placeholders (calledRoute slot.verb parts.route).1).length parts.inPath).symm, ?_,
    List.forall₂_drop_append _ _ _ built⟩
  have each := List.forall₂_take_append _ _ _ built
  rw [← List.forall₂_eq_eq_eq, List.forall₂_map_left_iff, List.forall₂_map_right_iff]
  exact forall₂_imp_mem each fun p _ name member here =>
    name_of_pathParameter here (named name (mem_placeholders_of_called member))

/-- The variables that the call of a method uses. -/
theorem Parts.Of.variables_eq {parts : Parts} {es : Entries} (made : parts.Of g slot es o)
    {kept : List Parameter} (names : kept.map (·.name) =
      (Route.placeholders (calledRoute slot.verb parts.route).1).map Naming.placeholderIdentifier) :
    (parts.invocation g slot.verb).flatMap Argument.variables =
      kept.map (fun p => .interpolated p.name) ++
        (bodyParameter? parts.request).toList.map (fun b => .sent b.name) ++
        parts.inQuery.toList.map (fun _ => .params) := by
  have address : (Route.placeholders (calledRoute slot.verb parts.route).1).map
      (fun name => Variable.interpolated (Naming.placeholderIdentifier name)) =
        kept.map (fun p => .interpolated p.name) := by
    have same := congrArg (List.map Variable.interpolated) names
    rw [List.map_map, List.map_map] at same
    exact same.symm
  have query : (if parts.declared.any (Declaration.isIn g "query") then [Variable.params] else []) =
      parts.inQuery.toList.map (fun _ => .params) := by
    rw [← (queryParameter?_eq_ok made.inQuery).1]
    cases parts.inQuery <;> rfl
  unfold Parts.invocation Parts.options
  rw [variables_argumentsOf, query, ← address]
  rfl

/-- The whole route is called, or the placeholder that ends it is cut off, with a slash before it. -/
theorem Parts.Of.cut_off {parts : Parts} {es : Entries} (made : parts.Of g slot es o)
    {removed : List Parameter} (others : List.Forall₂ (fun p name =>
        pathParameter g (place parts.route slot) o.id parts.declared name = .ok p)
      removed (calledRoute slot.verb parts.route).2.toList) :
    removed = [] ∧ o.route = Route.template parts.route.toList ∨
      slot.verb = "delete" ∧ ∃ p before name rest, removed = [p] ∧
      parts.route.toList = before ++ '/' :: '\x7b' :: (name ++ '\x7d' :: rest) ∧
      (rest = [] ∨ rest = ['\n']) ∧ o.route = Route.template before ∧
      pathParameter g (place parts.route slot) o.id parts.declared (String.ofList name) = .ok p := by
  rcases calledRoute_cases slot.verb parts.route with whole | ⟨delete, before, name, cut, called⟩
  · simp only [whole, Option.toList_none] at others
    exact .inl ⟨List.forall₂_nil_right_iff.mp others, by rw [made.template, whole]⟩
  · simp only [called, Option.toList_some] at others
    obtain ⟨p, none, here, end', rfl⟩ := List.forall₂_cons_right_iff.mp others
    obtain rfl := List.forall₂_nil_right_iff.mp end'
    obtain ⟨rest, text, -, -, ends⟩ := Route.trailing?_eq_some cut
    exact .inr ⟨delete, p, before, name, rest, rfl, text, ends, by rw [made.template, called], here⟩

/-- The call of a method uses its parameters and nothing else. The address interpolates those of the
path, in the order of the route, what is sent is the one of the body, whose type is that of the
request, and `params` is the one of the query. Only the parameter whose placeholder `delete` cuts off
the end of the route is not used. -/
theorem every_variable_is_a_parameter {claimed : List Scalar}
    (success : (compile g slot claimed).1 = .ok o)
    (named : ∀ route, slot.route = .text route → ∀ name ∈ Route.placeholders route.toList,
      Naming.isIdentifier name = true ∨ ∃ c ∈ name.toList, c.isAlphanum = true) :
    ∃ (parts : Parts) (as : List Argument) (pieces : List Route.Piece)
      (kept removed : List Parameter),
      parts.Of g slot (g.fields slot.operation) o ∧
      o.implementation = implementationText o.name (Text.joinWith ", " parts.arguments)
        o.responseType slot.verb (Text.joinWith ", " (as.map Argument.text)) ∧
      as.head? = some (.address pieces) ∧
      o.route = String.ofList (pieces.flatMap Route.Piece.template) ∧
      parts.inPath = kept ++ removed ∧
      o.parameters.Perm (kept ++ removed ++ (bodyParameter? parts.request).toList ++
        parts.inQuery.toList) ∧
      as.flatMap Argument.variables =
        kept.map (fun p => .interpolated p.name) ++
          (bodyParameter? parts.request).toList.map (fun b => .sent b.name) ++
          parts.inQuery.toList.map (fun _ => .params) ∧
      (∀ b ∈ bodyParameter? parts.request, b.type.text = o.requestType) ∧
      (∀ q ∈ parts.inQuery, q.name = "params") ∧
      (removed = [] ∧ o.route = Route.template parts.route.toList ∨
        slot.verb = "delete" ∧ ∃ p before name rest, removed = [p] ∧
        parts.route.toList = before ++ '/' :: '\x7b' :: (name ++ '\x7d' :: rest) ∧
        (rest = [] ∨ rest = ['\n']) ∧ o.route = Route.template before ∧
        pathParameter g (place parts.route slot) o.id parts.declared (String.ofList name) =
          .ok p) := by
  obtain ⟨parts, made⟩ := exists_parts_of_compile success
  have identifiers : ∀ name ∈ Route.placeholders parts.route.toList,
      Naming.placeholderIdentifier name ≠ "" := fun name member =>
    Naming.placeholderIdentifier_ne_empty (named _ made.route_eq_text name member)
  obtain ⟨kept, removed, inPath, names, others⟩ := made.exists_kept identifiers
  refine ⟨parts, parts.invocation g slot.verb, _, kept, removed, made, ?_, rfl, made.template, inPath,
    ?_, made.variables_eq names, ?_, (queryParameter?_eq_ok made.inQuery).2, made.cut_off others⟩
  · rw [← made.call_eq, ← made.verb]
    exact made.implementation
  · rw [← inPath]
    exact made.parameters_perm
  · intro b body
    rw [made.requestType]
    unfold bodyParameter? at body
    split at body
    · cases body
    · rw [← Option.some.inj body]

/-- A pet is released from its owner, for a reason and with a note. -/
def releaseGraph : Graph :=
  ⟨#[.mapping [(.text "operationId", .text "releasePet"), (.text "parameters", .node 1),
       (.text "requestBody", .node 5)],
     .list [.node 2, .node 3, .node 4],
     .mapping [(.text "name", .text "petId"), (.text "in", .text "path"),
       (.text "required", .scalar (.bool true))],
     .mapping [(.text "name", .text "owner-id"), (.text "in", .text "path"),
       (.text "required", .scalar (.bool true))],
     .mapping [(.text "name", .text "note"), (.text "in", .text "query")],
     .mapping [(.text "content", .node 6)],
     .mapping [(.text "application/json", .node 7)],
     .mapping [(.text "schema", .node 8)],
     .mapping [(.text "$ref", .text "#/components/schemas/Reason")]]⟩

def releaseSlot : Slot :=
  ⟨"delete", .text "/owners/{owner-id}/pets/{petId}", .node 0, .ok [], .null⟩

/-- The call uses the owner, the reason and the note. The pet is the parameter that it does not use. -/
theorem pet_is_released_from_its_owner :
    ∃ o, (compile releaseGraph releaseSlot []).1 = .ok o ∧
      o.parameters.map (·.name) = ["ownerId", "petId", "reason", "params"] ∧
      ∃ as : List Argument,
        (∃ arguments, o.implementation = implementationText o.name arguments o.responseType "delete"
          (Text.joinWith ", " (as.map Argument.text))) ∧
        as.flatMap Argument.variables = [.interpolated "ownerId", .sent "reason", .params] := by
  have evaluated : ((compile releaseGraph releaseSlot []).1.toOption.map fun o =>
      (o.id, o.route, o.parameters.map (·.name))) = some ("releasePet", "/owners/${ownerId}/pets",
        ["ownerId", "petId", "reason", "params"]) := by
    decide +kernel
  obtain ⟨o, success, same⟩ := Except.exists_of_map_toOption evaluated
  obtain ⟨identified, same⟩ := Prod.mk.inj same
  obtain ⟨called, names⟩ := Prod.mk.inj same
  have listed : Route.placeholders "/owners/{owner-id}/pets/{petId}".toList = ["owner-id", "petId"] := by
    decide +kernel
  obtain ⟨parts, as, pieces, kept, removed, made, text, -, -, inPath, -, uses, -, -, cut⟩ :=
    every_variable_is_a_parameter success (by
      intro route routed name member
      cases routed
      rw [listed, List.mem_pair] at member
      rcases member with rfl | rfl
      · exact .inr ⟨'o', by decide, by decide⟩
      · exact .inl (by decide))
  have route : parts.route = "/owners/{owner-id}/pets/{petId}" := (Except.ok.inj made.route).symm
  have placeholders : placeholders releaseSlot.verb parts.route = ["owner-id", "petId"] := by
    rw [route]
    decide +kernel
  obtain ⟨taken, noted⟩ : parts.inPath.map (·.name) = ["ownerId", "petId"] ∧
      parts.declared.any (Declaration.isIn releaseGraph "query") = true := by
    have read : ((Declaration.merge releaseGraph .null
        (place "/owners/{owner-id}/pets/{petId}" releaseSlot) (.ok [])
        (.ok [.node 2, .node 3, .node 4])).toOption.map fun ds =>
          ((["owner-id", "petId"].mapM (pathParameter releaseGraph
            (place "/owners/{owner-id}/pets/{petId}" releaseSlot) "releasePet" ds)).toOption.map
              (·.map (·.name)), ds.any (Declaration.isIn releaseGraph "query"))) =
          some (some ["ownerId", "petId"], true) := by decide +kernel
    have merged : Declaration.merge releaseGraph .null (place parts.route releaseSlot) (.ok [])
      (.ok [.node 2, .node 3, .node 4]) = .ok parts.declared := made.declared
    have compiled := made.inPath
    rw [placeholders, identified] at compiled
    rw [← route, merged, Except.toOption, Option.map_some, compiled] at read
    obtain ⟨taken, noted⟩ := Prod.mk.inj (Option.some.inj read)
    exact ⟨Option.some.inj taken, noted⟩
  have reason : (bodyParameter? parts.request).toList.map (·.name) = ["reason"] := by
    have read : ((Payload.ofItems releaseGraph
        [(place "/owners/{owner-id}/pets/{petId}" releaseSlot ++ "/requestBody", .node 5)]).toOption.map
          fun request => (bodyParameter? request).toList.map (·.name)) = some ["reason"] := by
      decide +kernel
    have requested : Payload.ofItems releaseGraph
      [(place parts.route releaseSlot ++ "/requestBody", .node 5)] = .ok parts.request := made.request
    rw [← route, requested] at read
    exact Option.some.inj read
  have params : parts.inQuery.toList.map (fun _ => Variable.params) = [.params] := by
    obtain ⟨some, -⟩ := queryParameter?_eq_ok made.inQuery
    obtain ⟨q, query⟩ := Option.isSome_iff_exists.mp (some.trans noted)
    rw [query]
    rfl
  refine ⟨o, success, names, as, ⟨_, text⟩, ?_⟩
  -- the route was cut, so the pet is what was left out
  rcases cut with ⟨-, whole⟩ | ⟨-, pet, -, -, -, rfl, -⟩
  · rw [called, route] at whole
    exact absurd whole (by decide +kernel)
  · have both : kept.map (·.name) ++ [pet.name] = ["ownerId"] ++ ["petId"] := by
      rw [← List.map_singleton, ← List.map_append, ← inPath]
      exact taken
    have owner := congrArg (List.map Variable.interpolated) (List.append_inj' both rfl).1
    have sent := congrArg (List.map Variable.sent) reason
    rw [List.map_map] at owner sent
    rw [uses, params]
    exact congrArg₂ (· ++ · ++ [.params]) owner sent

end TypedClient.Operation
