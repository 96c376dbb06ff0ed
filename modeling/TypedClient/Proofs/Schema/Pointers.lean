import TypedClient.Proofs.Document.Json
import TypedClient.Proofs.Document.Pointer
import TypedClient.Proofs.Schema.Sharing

/-!
# Where the faults of schemas lie

What is wrong with a schema is reported at a pointer: an array without items, or a reference that is
not into the components. The pointer goes on from that of the schema by the keys and numbers on the
way to the fault, each as it is written there. The names of properties are not escaped on the way, so
the pointer leads to the fault just if none of them has a slash or reads as an escape.
-/
namespace TypedClient.Schema

open Pointer (written IsPlain)

variable {g : Graph} {v w : Value} {es : Entries} {pointer : String} {s : Stop}

/-- The failure is about the schema itself. -/
inductive IsFault : Failure → Prop
  | schema (fault : SchemaFault) (p : Option String) : IsFault (.schema fault p)
  | unsupported (ref : String) (p : Option String) : IsFault (.unsupportedReference ref p)

/-- The schema offends as the failure says, at the pointer: it is an array without items, or it carries
the reference that is not into the components. -/
inductive Offends (g : Graph) (w : Value) (pointer : String) : Failure → Prop
  | array {es : Entries} (entries : g.entries? w = some es)
    (inline : g.truthy (es.field "$ref") = false) (kind : Kind.ofType g (es.field "type") = .ok .array)
    (items : es.field "items" = .null) :
    Offends g w pointer (.schema .arrayWithoutItems (some pointer))
  | reference {es : Entries} {ref : String} (entries : g.entries? w = some es)
    (stated : es.field "$ref" = .text ref) (outside : Reference.parse? ref = none) :
    Offends g w pointer (.unsupportedReference ref (some pointer))

theorem Offends.exists_node {f : Failure} (offends : Offends g w pointer f) : ∃ id, w = .node id := by
  have node : ∀ {es}, g.entries? w = some es → ∃ id, w = .node id := fun entries =>
    (Graph.view_of_entries? entries).imp fun _ view => view.1
  cases offends with
  | array entries => exact node entries
  | reference entries => exact node entries

/-- If the stop is a fault, it lies at a schema inside this one, below the pointer by the segments that
lead there. -/
def LiesBelow (g : Graph) (v : Value) (pointer : String) (s : Stop) : Prop :=
  ∀ f, s = .failure f → IsFault f → ∃ path w, g.walk? v path = some w ∧ Reaches g v w ∧
    Offends g w (pointer ++ written path) f

namespace LiesBelow

theorem malformed (m : Malformed) : LiesBelow g v pointer (.malformed m) := nofun

theorem cyclic (message : String) (p : Option String) :
    LiesBelow g v pointer (.failure (.cyclicSchema message p)) := by
  rintro _ ⟨⟩ fault
  cases fault

theorem here {f : Failure} (offends : Offends g v pointer f) :
    LiesBelow g v pointer (.failure f) := by
  rintro _ ⟨⟩ -
  exact ⟨[], v, rfl, .refl, by rwa [written, String.append_empty]⟩

/-- Below a scalar there are no faults. -/
theorem of_scalar {scalar : Scalar} (lies : LiesBelow g (.scalar scalar) pointer s) (v : Value)
    (p : String) : LiesBelow g v p s := by
  rintro f rfl fault
  obtain ⟨path, w, found, -, offends⟩ := lies f rfl fault
  obtain ⟨id, rfl⟩ := offends.exists_node
  cases path with
  | nil => cases found
  | cons segment path => cases found

/-- What lies below a schema inside lies below the schema around it. -/
theorem up (path : List String) (lies : LiesBelow g w (pointer ++ written path) s)
    (step : g.walk? v path = some w) (inside : IsInside g w v) : LiesBelow g v pointer s := by
  rintro f rfl fault
  obtain ⟨path', u, found, reached, offends⟩ := lies f rfl fault
  refine ⟨path ++ path', u, ?_, .tail reached inside, ?_⟩
  · rw [Graph.walk?_append, step, Option.bind_some, found]
  · rwa [Pointer.written_append, ← String.append_assoc]

end LiesBelow

theorem stopsBy_resolveReference_below (entries : g.entries? v = some es) (pointer : String) :
    StopsBy (LiesBelow g v pointer) (resolveReference es pointer) := by
  refine .bind (.asReference .malformed _) fun ref stated => .bind ?_ fun _ _ => .ok _
  unfold component
  split
  · exact .ok _
  · next outside => exact .stop (.here (.reference entries (Value.asReference_eq_ok stated) outside))

section Step

variable (entries : g.entries? v = some es) (inline : g.truthy (es.field "$ref") = false)
  {inner : Value → String → Result Resolved}
  (sound : ∀ w q, Inside g es w → StopsBy (LiesBelow g w q) (inner w q))

include entries inline sound

/-- A schema inside that stands under these segments stops as what lies below the schema around it. -/
theorem stopsBy_inner {path : List String} (step : g.walk? v path = some w) (inside : Inside g es w)
    (pointer : String) : StopsBy (LiesBelow g v pointer) (inner w (pointer ++ written path)) :=
  fun _ stopped => .up path (sound w _ inside _ stopped) step ⟨es, entries, inline, inside⟩

theorem stopsBy_resolveArray_below (kind : Kind.ofType g (es.field "type") = .ok .array)
    (pointer : String) : StopsBy (LiesBelow g v pointer) (resolveArray inner g es pointer) := by
  unfold resolveArray
  by_cases items : es.field "items" = .null
  · rw [if_pos items]
    exact .stop (.here (.array entries inline kind items))
  · have step : g.walk? v ["items"] = some (es.field "items") :=
      Graph.walk?_cons (Graph.step?_field entries items) []
    rw [if_neg items]
    exact .bind (stopsBy_inner entries inline sound step .items pointer) fun _ _ => .ok _

theorem stopsBy_resolveComposition_below (c : Composition) (pointer : String) :
    StopsBy (LiesBelow g v pointer)
      (resolveComposition inner g c (es.field c.key) pointer) := by
  unfold resolveComposition Graph.elements
  split
  · next members elements =>
    refine .bind (.ok _) fun _ same => .bind (.mapM fun e member => ?_) fun _ _ => .ok _
    cases same
    obtain ⟨w, index⟩ := e
    have here := List.mem_zipIdx_iff_getElem?.mp member
    have inside : Inside g es w := .member c elements (List.mem_of_getElem? here)
    rcases Graph.step?_of_elements? elements here with ⟨scalar, rfl⟩ | found
    · exact fun s stopped => (sound _ _ inside s stopped).of_scalar v pointer
    · have given : es.field c.key ≠ .null := by
        intro null
        rw [null] at elements
        cases elements
      have step : g.walk? v [c.key, toString index] = some w := by
        rw [Graph.walk?_cons (Graph.step?_field entries given)]
        exact Graph.walk?_cons found []
      have stops := stopsBy_inner entries inline sound step inside pointer
      rw [Pointer.written_pair] at stops
      simpa only [String.append_assoc] using stops
  · exact .stop (.malformed _)

theorem stopsBy_resolveProperties_below {properties : Entries}
    (stated : g.entries? (es.field "properties") = some properties)
    (named : Entries.areNamed properties = true) (pointer : String) :
    StopsBy (LiesBelow g v pointer) (resolveProperties inner g es properties pointer) := by
  obtain ⟨texts, distinct⟩ := Entries.areNamed_iff.mp named
  unfold resolveProperties requiredNames
  refine .bind (.bind (.optionalElements .malformed g _) fun vs _ =>
    .comparables .malformed g vs) fun required _ => ?_
  refine .bind (.mapM fun e member => ?_) fun _ _ => .ok _
  obtain ⟨key, w⟩ := e
  obtain ⟨name, rfl⟩ := texts key (List.mem_map_of_mem member)
  have step : g.walk? v ["properties", name] = some w := by
    have given : es.field "properties" ≠ .null := by
      intro null
      rw [null] at stated
      cases stated
    rw [Graph.walk?_cons (Graph.step?_field entries given)]
    refine Graph.walk?_cons ?_ []
    rw [Graph.step?_of_entries? stated, Entries.lookup?_text_of_mem distinct member]
  have stops := stopsBy_inner entries inline sound step (.property stated member) pointer
  have spelled : written ["properties", name] = "/properties/" ++ name := Pointer.written_pair _ _
  rw [spelled, ← String.append_assoc] at stops
  refine .bind (.scalarTextOf .malformed _) fun text called => ?_
  obtain rfl : name = text := Except.ok.inj called
  exact .bind stops fun _ _ => .bind (.asName .malformed _) fun _ _ => .ok _

variable (named : ∀ properties, g.entries? (es.field "properties") = some properties →
  Entries.areNamed properties = true)

include named

theorem stopsBy_resolveStructure_below (pointer : String) :
    StopsBy (LiesBelow g v pointer) (resolveStructure inner g es pointer) := by
  unfold resolveStructure
  split
  · next c members composed =>
    obtain rfl := composition?_eq_some composed
    exact stopsBy_resolveComposition_below entries inline sound c pointer
  · split
    · next properties stated =>
      exact stopsBy_resolveProperties_below entries inline sound stated (named _ stated) pointer
    · by_cases empty : es.field "additionalProperties" = .null ∨
          es.field "additionalProperties" = .scalar (.bool false)
      · rw [if_pos empty]
        exact .ok _
      · have step : g.walk? v ["additionalProperties"] =
            some (es.field "additionalProperties") :=
          Graph.walk?_cons (Graph.step?_field entries fun null => empty (.inl null)) []
        rw [if_neg empty]
        exact .bind (stopsBy_inner entries inline sound step .additional pointer) fun _ _ => .ok _

theorem stopsBy_resolveMapping_below (pointer : String) :
    StopsBy (LiesBelow g v pointer) (resolveMapping inner g es pointer) := by
  unfold resolveMapping
  refine .bind ?_ fun kind stated => ?_
  · unfold Kind.ofType
    split
    · exact .ok _
    · exact .ok _
    · exact .ok _
    · exact .stop (.malformed _)
  · cases kind with
    | number => exact .ok _
    | boolean => exact .ok _
    | array =>
      exact .bind (stopsBy_resolveArray_below entries inline sound stated pointer) fun _ _ => .ok _
    | string =>
      refine .bind ?_ fun _ _ => .ok _
      unfold resolveString
      split
      · exact .ok _
      · refine .bind ?_ fun values _ => ?_
        · exact .bind (.optionalElements .malformed g _) fun _ _ =>
            .mapM fun v _ => .textOf .malformed g v
        · split <;> exact .ok _
    | structural =>
      exact .bind (stopsBy_resolveStructure_below entries inline sound named pointer) fun _ _ => .ok _

end Step

/-- The properties of a schema, and of those inside it, have names that are texts, and no name twice. -/
def HasNamedProperties (g : Graph) (v : Value) : Prop :=
  ∀ w es properties, Reaches g v w → g.entries? w = some es →
    g.entries? (es.field "properties") = some properties → Entries.areNamed properties = true

theorem HasNamedProperties.inside (named : HasNamedProperties g v) (inside : IsInside g w v) :
    HasNamedProperties g w := fun u es properties reached =>
  named u es properties (.tail reached inside)

/-- So have those of a schema in a JSON document. -/
theorem HasNamedProperties.of_isJson (json : g.IsJson v) : HasNamedProperties g v := by
  intro w es properties reached entries stated
  have inside : g.Contains v w := by
    refine (contains_of_reaches reached).resolve_left ?_
    rintro ⟨s, rfl⟩
    cases entries
  have part : g.Contains w (es.field "properties") := by
    refine .of_part ((Graph.field_mem_parts entries "properties").resolve_left fun null => ?_)
    rw [null] at stated
    cases stated
  rw [← Graph.fields_of_entries? stated]
  exact json.areNamed_fields (inside.trans part)

/-- Whatever fault stops resolving lies at a schema inside. -/
theorem stopsBy_resolve_below (named : HasNamedProperties g v) (pointer : String) :
    StopsBy (LiesBelow g v pointer) (resolve g v pointer) := by
  suffices within : ∀ n active, g.unvisited active < n → ∀ v pointer, HasNamedProperties g v →
      StopsBy (LiesBelow g v pointer) (resolveWithin g active v pointer) from
    within _ [] (Nat.lt_succ_self _) v pointer named
  -- on the nodes that are not being resolved, of which each schema inside has one less
  intro n
  induction n with
  | zero => exact fun active enough => absurd enough (Nat.not_lt_zero _)
  | succ n ih =>
    intro active enough v pointer named
    cases entries : g.entries? v with
    | none =>
      rw [resolveWithin_other entries]
      exact .ok _
    | some es =>
      cases reference : g.truthy (es.field "$ref") with
      | true =>
        rw [resolveWithin_reference entries reference]
        exact stopsBy_resolveReference_below entries pointer
      | false =>
        obtain ⟨id, rfl, view⟩ := Graph.view_of_entries? entries
        by_cases again : id ∈ active
        · rw [resolveWithin_again entries reference again]
          exact .stop (.cyclic _ _)
        · have fewer := Graph.unvisited_cons_lt (Graph.lt_size_of_view_mapping view) again
          have sound : ∀ w q, Inside g es w →
              StopsBy (LiesBelow g w q) (resolveWithin g (id :: active) w q) := fun w q inside =>
            ih (id :: active) (by omega) w q (named.inside ⟨es, entries, reference, inside⟩)
          rw [resolveWithin_mapping entries reference again]
          exact stopsBy_resolveMapping_below entries reference sound
            (fun properties => named _ es properties .refl entries) pointer

/-- A fault that stops resolving lies at a schema inside, at the pointer that is reported: there an array
has no items, or a reference is not into the components. The pointer is that of the schema and behind
it the segments which lead from there to the fault. Read as a pointer it leads to the fault exactly if
no segment, which may be any name of a property, has a slash or anything that reads as an escape. -/
theorem fault_is_led_to_iff (unshared : g.Unshared v) (named : HasNamedProperties g v)
    {pointer : String} {f : Failure} (stopped : resolve g v pointer = fail f) (fault : IsFault f) :
    ∃ path w, g.walk? v path = some w ∧ Reaches g v w ∧ Offends g w (pointer ++ written path) f ∧
      (g.Leads v (written path) w ↔ ∀ segment ∈ path, IsPlain segment) := by
  obtain ⟨path, w, found, reached, offends⟩ :=
    stopsBy_resolve_below named pointer _ stopped f rfl fault
  obtain ⟨id, rfl⟩ := offends.exists_node
  exact ⟨path, _, found, reached, offends, unshared.leads_written_iff found⟩

/-- An object with one property, of any name, that is an array of arrays without items. -/
def arrayUnder (name : String) : Tree :=
  .mapping [(.text "type", .scalar (.text "object")), (.text "properties", .mapping
    [(.text name, .mapping [(.text "type", .scalar (.text "array")),
      (.text "items", .mapping [(.text "type", .scalar (.text "array"))])])])]

theorem isJson_arrayUnder (name : String) : (arrayUnder name).isJson = true := by
  simp [arrayUnder, Tree.isJson, Tree.entriesAreJson, Entries.areNamed, Entries.keys, Scalar.isJson,
    Scalar.isText]

/-- The lines of an order are reported where they are. -/
theorem order_lines_are_led_to :
    resolve (Graph.ofTree (arrayUnder "lines")).1 (Graph.ofTree (arrayUnder "lines")).2 "#" =
      fail (.schema .arrayWithoutItems (some "#/properties/lines/items")) ∧
    (∃ path w, (Graph.ofTree (arrayUnder "lines")).1.walk? (Graph.ofTree (arrayUnder "lines")).2 path =
        some w ∧
      Offends (Graph.ofTree (arrayUnder "lines")).1 w ("#" ++ written path)
        (.schema .arrayWithoutItems (some "#/properties/lines/items")) ∧
      ((Graph.ofTree (arrayUnder "lines")).1.Leads (Graph.ofTree (arrayUnder "lines")).2
        (written path) w ↔ ∀ segment ∈ path, IsPlain segment)) ∧
    ∃ w, (Graph.ofTree (arrayUnder "lines")).1.Leads (Graph.ofTree (arrayUnder "lines")).2
      "/properties/lines/items" w := by
  have json := Graph.isJson_ofTree (isJson_arrayUnder "lines")
  have stopped : resolve (Graph.ofTree (arrayUnder "lines")).1 (Graph.ofTree (arrayUnder "lines")).2
      "#" = fail (.schema .arrayWithoutItems (some "#/properties/lines/items")) := by
    decide +kernel
  obtain ⟨path, w, found, -, offends, leads⟩ :=
    fault_is_led_to_iff json.unshared (.of_isJson json) stopped (.schema _ _)
  refine ⟨stopped, ⟨path, w, found, offends, leads⟩, .node 0, ["properties", "lines", "items"], ?_, ?_⟩
  · decide +kernel
  · decide +kernel

/-- Where the name of a property has a slash, the pointer leads nowhere. -/
theorem slash_in_a_name_is_not_escaped :
    (arrayUnder "order/lines").isJson = true ∧
    resolve (Graph.ofTree (arrayUnder "order/lines")).1 (Graph.ofTree (arrayUnder "order/lines")).2
        "#" = fail (.schema .arrayWithoutItems (some "#/properties/order/lines/items")) ∧
    ¬∃ w, (Graph.ofTree (arrayUnder "order/lines")).1.Leads
      (Graph.ofTree (arrayUnder "order/lines")).2 "/properties/order/lines/items" w := by
  refine ⟨isJson_arrayUnder _, by decide +kernel, ?_⟩
  rintro ⟨w, path, read, found⟩
  have segments : Pointer.read? "/properties/order/lines/items" =
      some ["properties", "order", "lines", "items"] := by
    decide +kernel
  obtain rfl := Option.some.inj (segments.symm.trans read)
  have nowhere : (Graph.ofTree (arrayUnder "order/lines")).1.walk?
      (Graph.ofTree (arrayUnder "order/lines")).2 ["properties", "order", "lines", "items"] = none := by
    decide +kernel
  cases nowhere.symm.trans found

end TypedClient.Schema
