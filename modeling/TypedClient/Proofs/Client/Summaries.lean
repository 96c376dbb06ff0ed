import TypedClient.Proofs.Client.Compilation
import TypedClient.Proofs.Operation.Summary

/-!
# Summaries and the code of an interface

Documents that differ in the summaries of their operations only are compiled to the same interface but for
the comments. So the code of the interface is what leaks out of the comments and what the signatures are,
and it stays the same whatever the summaries say, as long as none of their lines behind the first one is
code.
-/
namespace TypedClient.Client

open Operation (CompiledFrom commentOf)
open Text (LineEnds isMarked)

/-- The second document is the first one but for the summaries of its operations. -/
structure Resummarized (g : Graph) (document document' : Value) : Prop where
  mapping : g.isMapping document' = true
  info : (g.fields document').field "info" = (g.fields document).field "info"
  routes : ∃ es, g.optionalEntries ((g.fields document').field "paths") = .ok es
  slots : List.Forall₂ (Operation.Resummarized g) (slotsOf g document) (slotsOf g document')

/-- No line of a summary behind its first one is code. -/
def Contained (ends : LineEnds) (g : Graph) (document : Value) : Prop :=
  ∀ slot ∈ slotsOf g document, ∀ s ∈ commentOf g slot, ends.leaked s = []

/-- The operations with the comments that come from slots. -/
def recomment (g : Graph) (l : List Slot) (os : List Operation) : List Operation :=
  (l.zip os).map fun p => p.2.withComment (commentOf g p.1)

theorem flatMap_append_eq_iff {α β : Type} {f h : α → List β} {l : List α} :
    (l.flatMap fun x => f x ++ h x) = l.flatMap h ↔ ∀ x ∈ l, f x = [] := by
  have lengths : (l.flatMap fun x => f x ++ h x).length = (l.flatMap f).length + (l.flatMap h).length := by
    induction l with
    | nil => rfl
    | cons x l ih =>
      simp only [List.flatMap_cons, List.length_append, ih]
      omega
  constructor
  · intro same
    rw [same] at lengths
    exact List.flatMap_eq_nil_iff.mp (List.eq_nil_of_length_eq_zero (by omega))
  · intro empty
    exact List.flatMap_congr fun x member => by rw [empty x member, List.nil_append]

variable {g : Graph} {document document' : Value} {l l' : List Slot} {os : List Operation}

theorem each_recomment (each : List.Forall₂ (CompiledFrom g) l os)
    (again : List.Forall₂ (Operation.Resummarized g) l l') :
    List.Forall₂ (CompiledFrom g) l' (recomment g l' os) := by
  induction each generalizing l' with
  | nil =>
    cases again
    exact .nil
  | cons here _ ih =>
    cases again with
    | cons first again => exact .cons (here.resummarized first) (ih again)

/-- What does not read the definitions of operations does not see their comments. -/
theorem map_recomment {β : Type} {f : Operation → β} (length : os.length ≤ l.length)
    (same : ∀ o comment, f (o.withComment comment) = f o) : (recomment g l os).map f = os.map f := by
  rw [recomment, List.map_map]
  calc (l.zip os).map (f ∘ fun p => p.2.withComment (commentOf g p.1))
      = (l.zip os).map (f ∘ Prod.snd) := List.map_congr_left fun p _ => same p.2 _
    _ = os.map f := by rw [← List.map_map, List.map_snd_zip length]

theorem models_recomment (length : os.length ≤ l.length) :
    (recomment g l os).filterMap (·.responseModel) = os.filterMap (·.responseModel) := by
  have through (os : List Operation) :
      os.filterMap (·.responseModel) = (os.map (·.responseModel)).filterMap id := by
    rw [List.filterMap_map]
    rfl
  rw [through, through os, map_recomment length fun _ _ => rfl]

theorem InterfaceOf.resummarized {name : String} (made : InterfaceOf g document name os)
    (again : Resummarized g document document') :
    InterfaceOf g document' name (recomment g (slotsOf g document') os) := by
  have each := each_recomment made.each again.slots
  refine ⟨again.mapping, ?_, again.routes, each, ?_⟩
  · have titled := made.title
    unfold Client.title at titled ⊢
    rw [again.info]
    exact titled
  · rw [map_recomment (again.slots.length_eq ▸ made.each.length_eq.ge) fun _ _ => rfl]
    exact made.distinct

/-- The code of an interface is that of its methods between the first and the last line. -/
theorem code_apiOf (ends : LineEnds) (name : String) (os : List Operation) :
    ends.code (apiOf name os).definition = ends.code ("export interface " ++ name ++ " \x7b") ++
      (os.flatMap fun o => ends.code o.definition) ++ ends.code "\x7d" := by
  have split : (apiOf name os).definition = "export interface " ++ name ++ " \x7b" ++ "\n" ++
      Text.lines (os.map (·.definition)) ++ "\n" ++ "\x7d" := by
    have opening : " \x7b\n" = " \x7b" ++ "\n" := rfl
    have closing : "\n\x7d" = "\n" ++ "\x7d" := rfl
    simp only [apiOf, opening, closing, String.append_assoc]
  rw [split, LineEnds.code_append, LineEnds.code_append, LineEnds.code_lines, List.flatMap_map]

/-- The code of methods with other comments is what leaks out of them and the signatures. -/
theorem code_recomment (ends : LineEnds) :
    ((recomment g l os).flatMap fun o => ends.code o.definition) =
      (l.zip os).flatMap fun p =>
        (commentOf g p.1).toList.flatMap ends.leaked ++ ends.code p.2.signature := by
  rw [recomment, List.flatMap_map]
  exact List.flatMap_congr fun p _ => p.2.code_definitionWith ends _

/-- The code of methods is their signatures if nothing leaks out of their comments. -/
theorem code_of_contained {ends : LineEnds} (each : List.Forall₂ (CompiledFrom g) l os)
    (contained : ∀ slot ∈ l, ∀ s ∈ commentOf g slot, ends.leaked s = []) :
    (os.flatMap fun o => ends.code o.definition) = os.flatMap fun o => ends.code o.signature := by
  refine List.flatMap_congr fun o member => ?_
  obtain ⟨slot, among, here⟩ := exists_right_of_forall₂ each.flip member
  have empty : (commentOf g slot).toList.flatMap ends.leaked = [] :=
    List.flatMap_eq_nil_iff.mpr fun s given => contained slot among s (Option.mem_toList.mp given)
  rw [Operation.definition_of_compile here.compiled, Operation.code_definitionWith, empty,
    List.nil_append]

/-- Other comments leave the code of methods as it is exactly if nothing leaks out of them. -/
theorem code_recomment_eq_iff {ends : LineEnds} (length : l.length = os.length) :
    ((recomment g l os).flatMap fun o => ends.code o.definition) =
        (os.flatMap fun o => ends.code o.signature) ↔
      ∀ slot ∈ l, ∀ s ∈ commentOf g slot, ends.leaked s = [] := by
  have signatures : (os.flatMap fun o => ends.code o.signature) =
      (l.zip os).flatMap fun p => ends.code p.2.signature := by
    conv_lhs => rw [← List.map_snd_zip length.ge, List.flatMap_map]
  rw [code_recomment, signatures, flatMap_append_eq_iff]
  conv_rhs => rw [← List.map_fst_zip length.le]
  simp only [List.forall_mem_map, List.flatMap_eq_nil_iff, Option.mem_toList, Option.mem_def]

/-- The lines of a definition before its signature are marked as a comment exactly if the lines of the
summary behind its first one are, whatever ends a line. Whatever the summaries of a document are, it is
compiled to the same implementation, imports and models. Where no line of the summaries behind a first one
is code, other summaries leave the code of the interface as it is exactly if no such line of theirs is
code. -/
theorem summaries_stay_in_comments_iff (ends : LineEnds) (g : Graph) :
    (∀ (slot : Slot) (claimed : List Scalar) (o : Operation),
      (Operation.compile g slot claimed).1 = .ok o →
      ∃ before, ends.linesOf o.definition = before ++ ends.linesOf o.signature ∧
        ((∀ line ∈ before, isMarked line = true) ↔
          ∀ s ∈ commentOf g slot, ∀ line ∈ ends.behind s, isMarked line = true)) ∧
    ∀ (document document' : Value) (api : Api) (models : List Model),
      (compileApi g document).result = .ok (api, models) → Resummarized g document document' →
      ∃ api', (compileApi g document').result = .ok (api', models) ∧ api'.name = api.name ∧
        api'.implementation = api.implementation ∧ api'.imports = api.imports ∧
        (Contained ends g document →
          (ends.code api'.definition = ends.code api.definition ↔ Contained ends g document')) := by
  constructor
  · intro slot claimed o success
    rw [Operation.definition_of_compile success]
    exact ⟨_, o.linesOf_definitionWith ends _, Operation.isMarked_before_signature ends _⟩
  · intro document document' api models success again
    obtain ⟨name, os, made, result⟩ := compileApi_eq_ok_iff.mp success
    obtain ⟨rfl, rfl⟩ := Prod.mk.inj result
    have length : (slotsOf g document').length = os.length :=
      again.slots.length_eq.symm.trans made.each.length_eq
    have implementations := map_recomment (g := g) (f := (·.implementation)) length.ge fun _ _ => rfl
    have imports := map_recomment (g := g) (f := (·.imports)) length.ge fun _ _ => rfl
    refine ⟨apiOf name (recomment g (slotsOf g document') os), compileApi_eq_ok_iff.mpr
      ⟨name, _, made.resummarized again, Prod.ext rfl (models_recomment length.ge).symm⟩, rfl, ?_, ?_,
      fun contained => ?_⟩
    · rw [apiOf, apiOf, implementations]
    · rw [apiOf, apiOf, List.flatMap_def, List.flatMap_def, imports]
    · rw [code_apiOf, code_apiOf, code_of_contained made.each contained]
      simp only [List.append_cancel_right_eq, List.append_cancel_left_eq]
      exact code_recomment_eq_iff length

/-- Pets that are listed without a summary, with one of two lines of comment and with one of which the
second line is none. -/
def listedPets : Graph :=
  ⟨#[.mapping [(.text "paths", .node 3)],
     .mapping [(.text "paths", .node 4)],
     .mapping [(.text "paths", .node 5)],
     .mapping [(.text "/pets", .node 6)],
     .mapping [(.text "/pets", .node 7)],
     .mapping [(.text "/pets", .node 8)],
     .mapping [(.text "get", .node 9)],
     .mapping [(.text "get", .node 10)],
     .mapping [(.text "get", .node 11)],
     .mapping [(.text "operationId", .text "listPets")],
     .mapping [(.text "operationId", .text "listPets"),
       (.text "summary", .text "Lists pets\n  // by name")],
     .mapping [(.text "operationId", .text "listPets"),
       (.text "summary", .text "Lists pets\nand more")]]⟩

def bareSlot : Slot := ⟨"get", .text "/pets", .node 9, .ok [], .null⟩

def namedSlot : Slot := ⟨"get", .text "/pets", .node 10, .ok [], .null⟩

def moreSlot : Slot := ⟨"get", .text "/pets", .node 11, .ok [], .null⟩

theorem slotsOf_bare : slotsOf listedPets (.node 0) = [bareSlot] := rfl

theorem slotsOf_named : slotsOf listedPets (.node 1) = [namedSlot] := rfl

theorem resummarized_listedPets : Resummarized listedPets (.node 0) (.node 1) where
  mapping := by decide
  info := by decide
  routes := ⟨_, rfl⟩
  slots := by
    rw [slotsOf_bare, slotsOf_named]
    refine .cons ⟨rfl, rfl, rfl, rfl, by decide, fun name other => ?_, ⟨_, rfl⟩⟩ .nil
    exact Operation.field_append_summary [(.text "operationId", .text "listPets")] _ other

/-- A summary whose second line is marked as a comment stays in the comments. -/
theorem listed_pets_stay_the_same :
    ∃ (o : Operation) (api api' : Api) (before : List (List Char)),
      (Operation.compile listedPets namedSlot []).1 = .ok o ∧
      LineEnds.script.linesOf o.definition = before ++ LineEnds.script.linesOf o.signature ∧
      (∀ line ∈ before, isMarked line = true) ∧
      (compileApi listedPets (.node 0)).result = .ok (api, []) ∧
      (compileApi listedPets (.node 1)).result = .ok (api', []) ∧
      LineEnds.script.code api'.definition = LineEnds.script.code api.definition := by
  have evaluated : ((Operation.compile listedPets namedSlot []).1.toOption.map (·.id)) =
      some "listPets" := by
    decide +kernel
  obtain ⟨o, compiled, -⟩ := Except.exists_of_map_toOption evaluated
  have evaluated : ((compileApi listedPets (.node 0)).result.toOption.map (·.2)) = some [] := by
    decide +kernel
  obtain ⟨⟨api, models⟩, success, empty⟩ := Except.exists_of_map_toOption evaluated
  cases empty
  have comment : commentOf listedPets namedSlot = some "Lists pets\n  // by name" :=
    (Operation.commentOf_of_text rfl).trans (if_neg (by decide))
  obtain ⟨lines, code⟩ := summaries_stay_in_comments_iff LineEnds.script listedPets
  obtain ⟨before, cut, marked⟩ := lines namedSlot [] o compiled
  obtain ⟨api', success', -, -, -, same⟩ := code _ _ api [] success resummarized_listedPets
  refine ⟨o, api, api', before, compiled, cut, marked.mpr ?_, success, success', (same ?_).mpr ?_⟩
  · rw [comment]
    decide +kernel
  · rw [Contained, slotsOf_bare]
    decide +kernel
  · rw [Contained, slotsOf_named]
    decide +kernel

/-- The second line of a summary that is not marked becomes code of the interface. -/
theorem second_line_of_summary_is_code :
    (∃ o, (Operation.compile listedPets moreSlot []).1 = .ok o ∧
      LineEnds.feeds.linesOf o.definition =
        ["  // Lists pets".toList, "and more".toList, o.signature.toList] ∧
      o.signature = "  listPets(): AxiosPromise<unknown>;" ∧ isMarked "and more".toList = false) ∧
    ∃ api api' : Api, (compileApi listedPets (.node 0)).result = .ok (api, []) ∧
      (compileApi listedPets (.node 2)).result = .ok (api', []) ∧
      LineEnds.script.code api.definition =
        ["export interface Api \x7b", "  listPets(): AxiosPromise<unknown>;", "\x7d"].map
          String.toList ∧
      LineEnds.script.code api'.definition =
        ["export interface Api \x7b", "and more", "  listPets(): AxiosPromise<unknown>;", "\x7d"].map
          String.toList := by
  have evaluated : ((Operation.compile listedPets moreSlot []).1.toOption.map fun o =>
      (LineEnds.feeds.linesOf o.definition, o.signature)) =
        some (["  // Lists pets", "and more", "  listPets(): AxiosPromise<unknown>;"].map String.toList,
          "  listPets(): AxiosPromise<unknown>;") := by
    decide +kernel
  obtain ⟨o, compiled, same⟩ := Except.exists_of_map_toOption evaluated
  obtain ⟨lines, signature⟩ := Prod.mk.inj same
  have bare : ((compileApi listedPets (.node 0)).result.toOption.map fun c =>
      (c.2, LineEnds.script.code c.1.definition)) = some ([],
        ["export interface Api \x7b", "  listPets(): AxiosPromise<unknown>;", "\x7d"].map
          String.toList) := by
    decide +kernel
  have more : ((compileApi listedPets (.node 2)).result.toOption.map fun c =>
      (c.2, LineEnds.script.code c.1.definition)) = some ([],
        ["export interface Api \x7b", "and more", "  listPets(): AxiosPromise<unknown>;", "\x7d"].map
          String.toList) := by
    decide +kernel
  obtain ⟨⟨api, _⟩, success, result⟩ := Except.exists_of_map_toOption bare
  obtain ⟨⟨api', _⟩, success', result'⟩ := Except.exists_of_map_toOption more
  obtain ⟨rfl, code⟩ := Prod.mk.inj result
  obtain ⟨rfl, code'⟩ := Prod.mk.inj result'
  refine ⟨⟨o, compiled, ?_, signature, by decide⟩, api, api', success, success', code, code'⟩
  rw [signature]
  exact lines

end TypedClient.Client
