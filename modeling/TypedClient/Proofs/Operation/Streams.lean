import TypedClient.Proofs.Operation.Invocation
import TypedClient.Proofs.Operation.References
import TypedClient.Proofs.Payload.Union

/-!
# Binary streams

A union of types is taken for a binary stream if it has one text, which came from a binary media type
first. Whether it is one is decided behind the removal of repeats, so an item with the same text from
another media type is overlooked. Where items with the same text have it from the same media type, all
items of a binary stream are binary, and no method asks for raw bytes that may be answered in JSON.
-/
namespace TypedClient

namespace Payload

/-- Items that contribute the same text have it from the same media type, if from any. -/
def ToldApart (g : Graph) (items : List (String × Value)) : Prop :=
  ∀ i ∈ items, ∀ j ∈ items, ∀ c d, Contributes g i c → Contributes g j d →
    c.text = d.text → c.media = d.media

/-- The item states content in JSON. -/
structure HasJson (g : Graph) (item : Value) : Prop where
  inline : g.truthy ((g.fields item).field "$ref") = false
  content : (g.fields ((g.fields item).field "content")).field MediaType.json.name ≠ .null

variable {g : Graph} {items : List (String × Value)} {p : Payload} {m : MediaType}

/-- A union is a binary stream if what came first is binary and nothing else has another text. -/
theorem binary?_eq_some_iff {cs : List Contribution} :
    (ofContributions cs).binary? = some m ↔ m.isBinary = true ∧
      ∃ c rest, cs = c :: rest ∧ c.media = some m ∧ ∀ d ∈ rest, d.text = c.text := by
  cases cs with
  | nil => simp [ofContributions, firsts, binary?]
  | cons c rest =>
    have others : (firsts (rest.map fun d => (d.text, d.media))).filter (fun u => u.1 ≠ c.text) = [] ↔
        ∀ d ∈ rest, d.text = c.text := by
      have known : ∀ s, s ∈ (firsts (rest.map fun d => (d.text, d.media))).map (·.1) ↔
          ∃ d ∈ rest, d.text = s := fun s => mem_values_ofContributions
      rw [List.filter_eq_nil_iff]
      constructor
      · intro same d member
        obtain ⟨u, listed, text⟩ := List.mem_map.mp ((known d.text).mpr ⟨d, member, rfl⟩)
        simpa [text] using same u listed
      · intro same u listed
        obtain ⟨d, member, text⟩ := (known u.1).mp (List.mem_map_of_mem listed)
        simp [← text, same d member]
    have types : (ofContributions (c :: rest)).types = (c.text, c.media) ::
      (firsts (rest.map fun d => (d.text, d.media))).filter fun u => u.1 ≠ c.text := rfl
    have single : (ofContributions (c :: rest)).binary? = some m ↔
        (∀ d ∈ rest, d.text = c.text) ∧ c.media = some m ∧ m.isBinary = true := by
      rw [← others, binary?, types]
      cases added : (firsts (rest.map fun d => (d.text, d.media))).filter fun u => u.1 ≠ c.text with
      | nil =>
        cases media : c.media with
        | none => simp
        | some m' => by_cases binary : m'.isBinary = true <;> grind
      | cons u us => simp
    rw [single]
    constructor
    · rintro ⟨same, media, binary⟩
      exact ⟨binary, c, rest, rfl, media, same⟩
    · rintro ⟨binary, _, _, listed, media, same⟩
      cases listed
      exact ⟨same, media, binary⟩

/-- All items of a binary stream come from its media type exactly if no two with the same text come
from different ones. -/
theorem media_eq_iff_toldApart (success : ofItems g items = .ok p) (binary : p.binary? = some m) :
    (∀ i ∈ items, ∀ c, Contributes g i c → c.media = some m) ↔ ToldApart g items := by
  constructor
  · intro all i first j second c d here there _
    exact (all i first c here).trans (all j second d there).symm
  · intro apart i listed c contributes
    obtain ⟨cs, rfl, members⟩ := exists_contributions success
    obtain ⟨-, first, rest, rfl, media, same⟩ := binary?_eq_some_iff.mp binary
    obtain ⟨j, earlier, there⟩ := (members first).mp List.mem_cons_self
    have text : c.text = first.text := by
      rcases List.mem_cons.mp ((members c).mpr ⟨i, listed, contributes⟩) with rfl | later
      · rfl
      · exact same c later
    exact (apart i listed j earlier c first contributes there text).trans media

theorem preferred?_of_json {content : Entries} (stated : content.field MediaType.json.name ≠ .null) :
    Contribution.preferred? content = some (.json, content.field MediaType.json.name) := by
  simp [Contribution.preferred?, MediaType.all, stated]

/-- What states content in JSON contributes a type that is no bytes. -/
theorem HasJson.contributes {item : String × Value} (json : HasJson g item.2)
    {c : Option Contribution} (success : Contribution.ofItem? g item.1 item.2 = .ok c) :
    ∃ c', c = some c' ∧ ∀ m, c'.media = some m → m.isBinary = false := by
  rcases Contribution.ofItem?_cases success with ⟨missing, -⟩ | ⟨reference, -⟩ | ⟨-, c', content, rfl⟩
  · have stated := json.content
    rw [missing] at stated
    exact absurd rfl stated
  · rw [json.inline] at reference
    cases reference
  · refine ⟨c', rfl, fun m media => ?_⟩
    rcases Contribution.ofContent_cases content with ⟨rfl, -⟩ | ⟨m', _, q, r, preferred, -, rfl⟩
    · cases media
    · cases media
      cases (preferred?_of_json json.content).symm.trans preferred
      rfl

/-- Where its items are told apart, no binary stream has one that states content in JSON. -/
theorem ToldApart.not_hasJson (apart : ToldApart g items) (success : ofItems g items = .ok p)
    (binary : p.binary? = some m) : ∀ i ∈ items, ¬HasJson g i.2 := by
  intro i listed json
  obtain ⟨c, succeeds⟩ := exists_ofItem? success i listed
  obtain ⟨c', rfl, media⟩ := json.contributes succeeds
  have all := (media_eq_iff_toldApart success binary).mpr apart
  obtain ⟨cs, rfl, -⟩ := exists_contributions success
  have bytes := (binary?_eq_some_iff.mp binary).1
  rw [media m (all i listed c' succeeds)] at bytes
  cases bytes

end Payload

namespace Operation

open Payload (Contributes ToldApart HasJson)

theorem eq_of_options_mem {takesBody : Bool} {pieces : List Route.Piece} {body : Option Parameter}
    {os os' : List CallOption} (member : .options os' ∈ argumentsOf takesBody pieces body os) :
    os' = os := by
  unfold argumentsOf at member
  cases takesBody <;> cases body <;> by_cases empty : os = [] <;> simp_all

/-- Some response that reports success states content in JSON. -/
def AnswersJson (g : Graph) (responses : Entries) : Prop :=
  ∃ e ∈ responses, e.1.display.toList.head? = some '2' ∧ HasJson g e.2

/-- The media type of a binary stream is binary, and every item that contributes to the stream comes
from it exactly if no two items contribute the same text from different media types, or one of them
from none. So the call of a method whose responses are told apart does not ask for raw bytes if a
response that reports success states content in JSON, in whatever order the responses stand. -/
theorem binary_streams_are_told_apart (g : Graph) :
    (∀ items p m, Payload.ofItems g items = .ok p → p.binary? = some m →
      m.isBinary = true ∧
      ((∀ i ∈ items, ∀ c, Contributes g i c → c.media = some m) ↔ ToldApart g items)) ∧
    (∀ slot claimed o, (compile g slot claimed).1 = .ok o →
      ∃ parts : Parts, parts.Of g slot (g.fields slot.operation) o ∧
        o.implementation = implementationText o.name (Text.joinWith ", " parts.arguments)
          o.responseType slot.verb
          (Text.joinWith ", " ((parts.invocation g slot.verb).map Argument.text)) ∧
        (ToldApart g (successes (place parts.route slot) parts.responses) →
          AnswersJson g parts.responses →
          ∀ os m, .options os ∈ parts.invocation g slot.verb → .accept m ∉ os)) := by
  constructor
  · intro items p m success binary
    refine ⟨?_, Payload.media_eq_iff_toldApart success binary⟩
    obtain ⟨cs, rfl, -⟩ := Payload.exists_contributions success
    exact (Payload.binary?_eq_some_iff.mp binary).1
  · intro slot claimed o success
    obtain ⟨parts, made⟩ := exists_parts_of_compile success
    refine ⟨parts, made, ?_, ?_⟩
    · rw [← made.call_eq, ← made.verb]
      exact made.implementation
    · rintro apart ⟨e, listed, succeeds, json⟩ os m options accepts
      obtain rfl := eq_of_options_mem options
      have binary := accept_mem_optionsOf.mp accepts
      have reported : (place parts.route slot ++ "/responses/" ++ e.1.display, e.2) ∈
          successes (place parts.route slot) parts.responses :=
        List.mem_map_of_mem (List.mem_filter.mpr ⟨listed, decide_eq_true succeeds⟩)
      exact apart.not_hasJson (ofItems_of_successPayload made.success) binary _ reported json

/-- A scan comes as a document, a letter as a document or as a text in JSON. The type of the document
is that of raw bytes for the scan, and a text for the letter. -/
def mailGraph : Graph :=
  ⟨#[.mapping [(.text "operationId", .text "getScan"), (.text "responses", .node 2)],
     .mapping [(.text "operationId", .text "getLetter"), (.text "responses", .node 3)],
     .mapping [(.text "200", .node 4), (.text "202", .node 12)],
     .mapping [(.text "200", .node 8), (.text "202", .node 12)],
     .mapping [(.text "content", .node 5)],
     .mapping [(.text "application/pdf", .node 6)],
     .mapping [(.text "schema", .node 7)],
     .mapping [(.text "type", .text "string"), (.text "format", .text "binary")],
     .mapping [(.text "content", .node 9)],
     .mapping [(.text "application/pdf", .node 10)],
     .mapping [(.text "schema", .node 11)],
     .mapping [(.text "type", .text "string")],
     .mapping [(.text "content", .node 13)],
     .mapping [(.text "application/json", .node 10)]]⟩

def scanSlot : Slot := ⟨"get", .text "/scan", .node 0, .ok [], .null⟩

def letterSlot : Slot := ⟨"get", .text "/letter", .node 1, .ok [], .null⟩

/-- The scan alone is a stream of bytes. A method that gets the scan or a text in JSON asks for none. -/
theorem scan_is_not_streamed_beside_a_text :
    (Payload.ofItems mailGraph [("#/200", .node 4), ("#/206", .node 4)]).toOption.map (·.binary?) =
      some (some .pdf) ∧
    (∀ c, Contributes mailGraph ("#/206", .node 4) c → c.media = some .pdf) ∧
    AnswersJson mailGraph (mailGraph.fields (.node 2)) ∧
    ∃ (o : Operation) (parts : Parts), (compile mailGraph scanSlot []).1 = .ok o ∧
      parts.Of mailGraph scanSlot (mailGraph.fields (.node 0)) o ∧
      ∀ os m, .options os ∈ parts.invocation mailGraph "get" → .accept m ∉ os := by
  have scanned : ∀ p, Contributes mailGraph (p, .node 4) ⟨"BlobPart", some .pdf, []⟩ :=
    fun p => by with_unfolding_all rfl
  have told : ∀ p, Contributes mailGraph (p, .node 12) ⟨"string", some .json, []⟩ :=
    fun p => by with_unfolding_all rfl
  have single : Payload.ofItems mailGraph [("#/200", .node 4), ("#/206", .node 4)] =
      .ok ⟨[("BlobPart", some .pdf)], []⟩ := by
    with_unfolding_all rfl
  have answers : AnswersJson mailGraph (mailGraph.fields (.node 2)) :=
    ⟨(.text "202", .node 12), by decide, by decide, by decide, by decide⟩
  obtain ⟨o, success⟩ := Except.exists_ok
    (show (compile mailGraph scanSlot []).1.toOption.isSome = true by decide +kernel)
  obtain ⟨streams, methods⟩ := binary_streams_are_told_apart mailGraph
  obtain ⟨parts, made, -, quiet⟩ := methods scanSlot [] o success
  have responses : parts.responses = mailGraph.fields (.node 2) := (Except.ok.inj made.responses).symm
  refine ⟨by rw [single]; rfl, ?_, answers, o, parts, success, made, ?_⟩
  · apply (streams _ _ .pdf single rfl).2.mpr _ ("#/206", .node 4) (by decide)
    rintro ⟨_, _⟩ first ⟨_, _⟩ second c d here there -
    simp only [List.mem_pair, Prod.mk.injEq, ← or_and_right] at first second
    obtain ⟨-, rfl⟩ := first
    obtain ⟨-, rfl⟩ := second
    rw [here.unique (scanned _), there.unique (scanned _)]
  · apply quiet _ (responses ▸ answers)
    rw [responses]
    rintro ⟨_, _⟩ first ⟨_, _⟩ second c d here there same
    have listed : ∀ i ∈ successes (place parts.route scanSlot) (mailGraph.fields (.node 2)),
        i.2 = .node 4 ∨ i.2 = .node 12 := by
      intro i member
      obtain ⟨e, reported, rfl⟩ := List.mem_map.mp member
      have stated : e ∈ [(Scalar.text "200", Value.node 4), (.text "202", .node 12)] :=
        (List.mem_filter.mp reported).1
      rcases List.mem_pair.mp stated with rfl | rfl
      · exact .inl rfl
      · exact .inr rfl
    rcases listed _ first with rfl | rfl <;> rcases listed _ second with rfl | rfl
    · rw [here.unique (scanned _), there.unique (scanned _)]
    · rw [here.unique (scanned _), there.unique (told _)] at same
      exact absurd same (by decide)
    · rw [here.unique (told _), there.unique (scanned _)] at same
      exact absurd same (by decide)
    · rw [here.unique (told _), there.unique (told _)]

/-- A letter has the type of a text both as a document, which comes first, and in JSON. The method that
gets it asks for raw bytes all the same. -/
theorem letter_in_json_is_streamed :
    Payload.ofItems mailGraph [("#/200", .node 8), ("#/202", .node 12)] =
      .ok ⟨[("string", some .pdf)], []⟩ ∧
    (⟨[("string", some .pdf)], []⟩ : Payload).binary? = some .pdf ∧
    Contributes mailGraph ("#/202", .node 12) ⟨"string", some .json, []⟩ ∧
    AnswersJson mailGraph (mailGraph.fields (.node 3)) ∧
    (compile mailGraph letterSlot []).1.toOption.map (·.implementation) =
      some ("  getLetter(): AxiosPromise<string> \x7b\n    return axios.get(`/letter`, " ++
        "\x7b responseType: 'arraybuffer', headers: \x7b Accept: 'application/pdf' \x7d \x7d);\n  \x7d,") := by
  refine ⟨?_, rfl, ?_, ⟨(.text "202", .node 12), ?_, ?_, ?_, ?_⟩, ?_⟩
  · with_unfolding_all rfl
  · with_unfolding_all rfl
  · decide
  · decide
  · decide
  · decide
  · decide +kernel

end Operation

end TypedClient
