import TypedClient.Proofs.Operation.Compilation

/-!
# The call of a method

The call that a method makes has the address as its first argument. A verb that takes a body has it as
the second one and the options as the third; where there are options but no body, `undefined` stands
in its place. Any other verb has at most the options behind the address, and they carry the body.
-/
namespace TypedClient.Operation

/-- What the options of a call can say. -/
inductive CallOption where
  /-- The body is the value of this variable. -/
  | data (name : String)
  | params
  | accept (media : MediaType)
  deriving DecidableEq, Repr

def CallOption.texts : CallOption → List String
  | .data name => ["data: " ++ name]
  | .params => ["params"]
  | .accept m => ["responseType: 'arraybuffer'", "headers: \x7b Accept: '" ++ m.name ++ "' \x7d"]

/-- An argument of a call. -/
inductive Argument where
  /-- The route as a template. -/
  | address (pieces : List Route.Piece)
  /-- The body is the value of this variable. -/
  | body (name : String)
  | undefined
  | options (os : List CallOption)
  deriving DecidableEq, Repr

def Argument.text : Argument → String
  | .address pieces => "`" ++ String.ofList (pieces.flatMap Route.Piece.template) ++ "`"
  | .body name => name
  | .undefined => "undefined"
  | .options os => "\x7b " ++ Text.joinWith ", " (os.flatMap CallOption.texts) ++ " \x7d"

/-- The options of a call. -/
def optionsOf (takesBody : Bool) (body : Option Parameter) (hasQuery : Bool)
    (accept : Option MediaType) : List CallOption :=
  (if takesBody then [] else (body.map fun b => .data b.name).toList) ++
    (if hasQuery then [.params] else []) ++ (accept.map .accept).toList

/-- The arguments of a call. -/
def argumentsOf (takesBody : Bool) (pieces : List Route.Piece) (body : Option Parameter)
    (os : List CallOption) : List Argument :=
  .address pieces ::
    ((if takesBody then
        match body with
        | some b => [.body b.name]
        | none => if os = [] then [] else [.undefined]
      else []) ++
      if os = [] then [] else [.options os])

section Texts

variable {verb : String} {body : Option Parameter} {hasQuery : Bool} {accept : Option MediaType}
  {os : List CallOption}

theorem callOptions_eq : callOptions verb body hasQuery accept =
    (optionsOf (bodyVerbs.contains verb) body hasQuery accept).flatMap CallOption.texts := by
  unfold callOptions optionsOf
  cases body <;> cases bodyVerbs.contains verb <;> cases hasQuery <;> cases accept <;> rfl

theorem flatMap_texts_eq_nil_iff : os.flatMap CallOption.texts = [] ↔ os = [] := by
  constructor
  · intro empty
    cases os with
    | nil => rfl
    | cons x os => cases x <;> cases empty
  · rintro rfl
    rfl

theorem callArguments_eq (pieces : List Route.Piece) :
    callArguments verb (String.ofList (pieces.flatMap Route.Piece.template)) body
        (os.flatMap CallOption.texts) =
      (argumentsOf (bodyVerbs.contains verb) pieces body os).map Argument.text := by
  have empty : (os.flatMap CallOption.texts).isEmpty = decide (os = []) := by
    rw [Bool.eq_iff_iff, List.isEmpty_iff, decide_eq_true_eq, flatMap_texts_eq_nil_iff]
  unfold callArguments argumentsOf
  simp only [empty]
  by_cases none : os = [] <;> cases body <;> cases bodyVerbs.contains verb <;> simp [none, Argument.text]

end Texts

section Places

variable (pieces : List Route.Piece) (body : Option Parameter) (os : List CallOption)

/-- Where a verb takes the body, that is the second argument and the options are the third. -/
theorem places_of_takesBody :
    (argumentsOf true pieces body os)[1]? = (match body with
      | some b => some (.body b.name)
      | none => if os = [] then none else some .undefined) ∧
    (argumentsOf true pieces body os)[2]? = (if os = [] then none else some (.options os)) ∧
    (argumentsOf true pieces body os)[3]? = none := by
  unfold argumentsOf
  cases body <;> by_cases empty : os = [] <;> simp [empty]

theorem places_of_not_takesBody :
    (argumentsOf false pieces body os)[1]? = (if os = [] then none else some (.options os)) ∧
    (argumentsOf false pieces body os)[2]? = none := by
  unfold argumentsOf
  by_cases empty : os = [] <;> simp [empty]

end Places

section Options

variable {takesBody : Bool} {body : Option Parameter} {hasQuery : Bool} {accept : Option MediaType}

theorem data_mem_optionsOf {name : String} :
    .data name ∈ optionsOf takesBody body hasQuery accept ↔
      takesBody = false ∧ ∃ b, body = some b ∧ name = b.name := by
  unfold optionsOf
  cases takesBody <;> cases body <;> cases hasQuery <;> cases accept <;> simp

theorem params_mem_optionsOf :
    .params ∈ optionsOf takesBody body hasQuery accept ↔ hasQuery = true := by
  unfold optionsOf
  cases takesBody <;> cases body <;> cases hasQuery <;> cases accept <;> simp

theorem accept_mem_optionsOf {m : MediaType} :
    .accept m ∈ optionsOf takesBody body hasQuery accept ↔ accept = some m := by
  unfold optionsOf
  cases takesBody <;> cases body <;> cases hasQuery <;> cases accept <;> simp [eq_comm]

theorem nodup_optionsOf : (optionsOf takesBody body hasQuery accept).Nodup := by
  unfold optionsOf
  cases takesBody <;> cases body <;> cases hasQuery <;> cases accept <;> simp

end Options

variable {g : Graph} {slot : Slot} {o : Operation}

/-- The options of the call that a method makes. -/
def Parts.options (parts : Parts) (g : Graph) (verb : String) : List CallOption :=
  optionsOf (bodyVerbs.contains verb) (bodyParameter? parts.request)
    (parts.declared.any (Declaration.isIn g "query")) parts.success.binary?

/-- The arguments of the call that a method makes. -/
def Parts.invocation (parts : Parts) (g : Graph) (verb : String) : List Argument :=
  argumentsOf (bodyVerbs.contains verb) (Route.pieces (calledRoute verb parts.route).1)
    (bodyParameter? parts.request) (parts.options g verb)

theorem not_isEmpty_filter (ds : List Declaration) (location : String) :
    (!(ds.filter (Declaration.isIn g location)).isEmpty) = ds.any (Declaration.isIn g location) := by
  rw [Bool.eq_iff_iff]
  simp

theorem Parts.Of.call_eq {parts : Parts} {es : Entries} (made : parts.Of g slot es o) :
    parts.call g o.verb o.route = (parts.invocation g slot.verb).map Argument.text := by
  unfold Parts.call Parts.invocation Parts.options
  rw [made.verb, made.template, not_isEmpty_filter, callOptions_eq]
  exact callArguments_eq _

/-- The address is the first argument of the call. For a verb that takes a body the second one is the
body, or `undefined` if there is none but there are options, and the options are the third and do not
carry data. For any other verb the options are the only other argument, and they carry the body if
there is one. They say `params` exactly if a parameter in the query is in force, and they accept a
media type exactly if the responses that report success are one binary stream of it. -/
theorem arguments_stand_in_their_places {claimed : List Scalar}
    (success : (compile g slot claimed).1 = .ok o) :
    ∃ (parts : Parts) (as : List Argument) (os : List CallOption),
      parts.Of g slot (g.fields slot.operation) o ∧
      o.implementation = implementationText o.name (Text.joinWith ", " parts.arguments)
        o.responseType slot.verb (Text.joinWith ", " (as.map Argument.text)) ∧
      (∃ address, as[0]? = some address ∧ address.text = "`" ++ o.route ++ "`") ∧
      (slot.verb ∈ ["post", "put", "patch"] →
        as[1]? = (match bodyParameter? parts.request with
          | some b => some (.body b.name)
          | none => if os = [] then none else some .undefined) ∧
        as[2]? = (if os = [] then none else some (.options os)) ∧ as[3]? = none ∧
        ∀ name, .data name ∉ os) ∧
      (slot.verb ∉ ["post", "put", "patch"] →
        as[1]? = (if os = [] then none else some (.options os)) ∧ as[2]? = none ∧
        ∀ name, .data name ∈ os ↔ ∃ b, bodyParameter? parts.request = some b ∧ name = b.name) ∧
      (bodyParameter? parts.request = none ↔ o.requestType = "") ∧
      (.params ∈ os ↔ ∃ d ∈ parts.declared, d.isIn g "query" = true) ∧
      (∀ m, .accept m ∈ os ↔ parts.success.binary? = some m) ∧ os.Nodup := by
  obtain ⟨parts, made⟩ := exists_parts_of_compile success
  have query : (parts.declared.any (Declaration.isIn g "query") = true) ↔
      ∃ d ∈ parts.declared, d.isIn g "query" = true := List.any_eq_true
  have body : bodyParameter? parts.request = none ↔ o.requestType = "" := by
    rw [made.requestType, bodyParameter?]
    split
    · next empty => exact iff_of_true rfl empty
    · next some => exact iff_of_false nofun some
  refine ⟨parts, parts.invocation g slot.verb, parts.options g slot.verb, made, ?_, ?_, ?_, ?_, body,
    params_mem_optionsOf.trans query, fun m => accept_mem_optionsOf, nodup_optionsOf⟩
  · rw [← made.call_eq, ← made.verb]
    exact made.implementation
  · refine ⟨.address (Route.pieces (calledRoute slot.verb parts.route).1), rfl, ?_⟩
    rw [made.template]
    rfl
  · intro takes
    have takesBody : bodyVerbs.contains slot.verb = true := List.contains_iff_mem.mpr takes
    obtain ⟨second, third, fourth⟩ := places_of_takesBody
      (Route.pieces (calledRoute slot.verb parts.route).1) (bodyParameter? parts.request)
      (parts.options g slot.verb)
    rw [Parts.invocation, takesBody]
    refine ⟨second, third, fourth, fun name member => ?_⟩
    have other := (data_mem_optionsOf.mp member).1
    rw [takesBody] at other
    cases other
  · intro leaves
    have takesBody : bodyVerbs.contains slot.verb = false :=
      Bool.eq_false_iff.mpr fun takes => leaves (List.contains_iff_mem.mp takes)
    obtain ⟨second, third⟩ := places_of_not_takesBody
      (Route.pieces (calledRoute slot.verb parts.route).1) (bodyParameter? parts.request)
      (parts.options g slot.verb)
    rw [Parts.invocation, takesBody]
    refine ⟨second, third, fun name => data_mem_optionsOf.trans ?_⟩
    rw [takesBody]
    exact and_iff_right rfl

/-- A report is printed for a year. -/
def reportGraph : Graph :=
  ⟨#[.mapping [(.text "operationId", .text "printReport"), (.text "parameters", .node 1),
       (.text "responses", .node 4)],
     .list [.node 2],
     .mapping [(.text "name", .text "year"), (.text "in", .text "query"), (.text "schema", .node 3)],
     .mapping [(.text "type", .text "integer")],
     .mapping [(.text "200", .node 5)],
     .mapping [(.text "content", .node 6)],
     .mapping [(.text "application/pdf", .node 7)],
     .mapping [(.text "schema", .node 8)],
     .mapping [(.text "type", .text "string"), (.text "format", .text "binary")]]⟩

def reportSlot : Slot := ⟨"post", .text "/reports", .node 0, .ok [], .null⟩

/-- There is no body to post, so `undefined` stands in its place and the year behind it. -/
theorem report_is_posted_without_a_body :
    ∃ o, (compile reportGraph reportSlot []).1 = .ok o ∧ o.requestType = "" ∧
      ∃ (as : List Argument) (os : List CallOption),
        (∃ arguments, o.implementation = implementationText o.name arguments o.responseType "post"
          (Text.joinWith ", " (as.map Argument.text))) ∧
        as[1]? = some .undefined ∧ as[2]? = some (.options os) ∧ .params ∈ os := by
  have evaluated : ((compile reportGraph reportSlot []).1.toOption.map (·.requestType)) = some "" := by
    decide +kernel
  obtain ⟨o, success, none⟩ := Except.exists_of_map_toOption evaluated
  obtain ⟨parts, as, os, made, text, -, places, -, noBody, query, -, -⟩ :=
    arguments_stand_in_their_places success
  have listed : .ok parts.declared = Declaration.merge reportGraph .null
      (place parts.route reportSlot) (.ok []) (.ok [.node 2]) := made.declared.symm
  have route : parts.route = "/reports" := (Except.ok.inj made.route).symm
  have year : parts.declared.any (Declaration.isIn reportGraph "query") = true := by
    have merged : ((Declaration.merge reportGraph .null (place "/reports" reportSlot) (.ok [])
        (.ok [.node 2])).toOption.map fun ds =>
          ds.any (Declaration.isIn reportGraph "query")) = some true := by decide +kernel
    rw [← route, ← listed] at merged
    exact Option.some.inj merged
  have params : .params ∈ os := query.mpr (List.any_eq_true.mp year)
  obtain ⟨second, third, -, -⟩ := places (by decide)
  rw [noBody.mpr none, if_neg (List.ne_nil_of_mem params)] at second
  rw [if_neg (List.ne_nil_of_mem params)] at third
  exact ⟨o, success, none, as, os, ⟨_, text⟩, second, third, params⟩

example : (compile reportGraph reportSlot []).1.toOption.map (·.implementation) =
    some ("  printReport(params?: \x7byear?: number\x7d): AxiosPromise<BlobPart> \x7b\n" ++
      "    return axios.post(`/reports`, undefined, \x7b params, responseType: 'arraybuffer', " ++
      "headers: \x7b Accept: 'application/pdf' \x7d \x7d);\n  \x7d,") := by
  decide +kernel

end TypedClient.Operation
