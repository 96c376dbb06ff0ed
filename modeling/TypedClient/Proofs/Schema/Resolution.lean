import TypedClient.Proofs.Failure.Success
import TypedClient.Proofs.Schema.Classification
import TypedClient.Proofs.Schema.Form

/-!
# Resolving by the outline

The main statements say that resolving a schema is reading its outline: a schema with an outline
resolves to the result of that outline, whatever mappings it stands inside, and a schema that
resolves has an outline.
-/
namespace TypedClient

namespace Schema

namespace Outline

/-- Outlines resolved one after the other: the first offence in any of them, or all of them. -/
theorem mapM_result (cs : List (String × Outline)) :
    (cs.mapM fun c => c.2.result c.1) =
      match (cs.flatMap fun c => c.2.visits c.1).findSome? offence? with
      | some s => .error s
      | none => .ok (cs.map fun c => c.2.resolved c.1) := by
  induction cs with
  | nil => rfl
  | cons c cs ih =>
    rw [List.mapM_cons, ih, result, List.flatMap_cons, List.findSome?_append]
    cases (c.2.visits c.1).findSome? offence? with
    | some s => rfl
    | none => cases (cs.flatMap fun c => c.2.visits c.1).findSome? offence? <;> rfl

theorem names_eq (p : String) (o : Outline) :
    o.names p = o.bare.typeName?.toList ++ o.inner.flatMap fun c => c.2.names (p ++ c.1) := by
  rw [names, visits_eq, List.filterMap_cons, List.filterMap_flatMap]
  cases o.bare.typeName? <;> rfl

/-- The result of an outline that is no offence by itself is built from the results inside it. -/
theorem bind_parts {p : String} {o : Outline} (sound : offence? (p, o.bare) = none)
    (build : List Resolved → Resolved)
    (agrees : build (o.inner.map fun c => c.2.resolved (p ++ c.1)) = o.resolved p) :
    ((o.inner.map fun c => (p ++ c.1, c.2)).mapM (fun c => c.2.result c.1) >>= fun parts =>
      .ok (build parts)) = o.result p := by
  rw [mapM_result, result, visits_eq, List.findSome?_cons, sound, List.flatMap_map, List.map_map]
  cases (o.inner.flatMap fun c => c.2.visits (p ++ c.1)).findSome? offence? with
  | some s => rfl
  | none => exact congrArg Except.ok agrees

/-- What the outlines inside another one use is what it uses, unless it has a name itself. -/
theorem join_resolved {p : String} {o : Outline} (unnamed : o.bare.typeName? = none)
    (structural : o.literals = []) :
    .join o.text (o.inner.map fun c => c.2.resolved (p ++ c.1)) = o.resolved p := by
  rw [Resolved.join, resolved, names_eq, unnamed, structural, List.flatMap_map]
  simp only [resolved, Text.distinct_flatMap_distinct, Option.toList_none, List.nil_append]

/-- The same for an outline with one inside it. -/
theorem bind_part {p step : String} {o i : Outline} (sound : offence? (p, o.bare) = none)
    (single : o.inner = [(step, i)]) (build : Resolved → Resolved)
    (agrees : build (i.resolved (p ++ step)) = o.resolved p) :
    (i.result (p ++ step) >>= fun r => .ok (build r)) = o.result p := by
  rw [result, result, visits_eq p o, List.findSome?_cons, sound, single, List.flatMap_singleton]
  cases (i.visits (p ++ step)).findSome? offence? with
  | some s => rfl
  | none => exact congrArg Except.ok agrees

theorem result_leaf (p : String) (o : Outline) (leaf : o.inner = []) :
    o.result p =
      match offence? (p, o.bare) with
      | some s => .error s
      | none => .ok ⟨o.text, o.bare.typeName?.toList, o.literals⟩ := by
  rw [result, visits_eq, leaf, List.flatMap_nil, List.findSome?_cons]
  cases offence? (p, o.bare) with
  | some s => rfl
  | none =>
    rw [resolved, names_eq, leaf]
    cases o.bare.typeName? <;> rfl

theorem result_any (p : String) : Outline.any.result p = .ok ⟨"any", [], []⟩ := by
  rw [result_leaf p .any rfl, text]
  rfl

theorem result_reference (p t : String) :
    (Outline.reference t).result p =
      match Reference.parse? t with
      | some r => .ok ⟨r.typeName, [r.typeName], []⟩
      | none => .error (.failure (.unsupportedReference t (some p))) := by
  have offends : offence? (p, (Outline.reference t).bare) = if (Reference.parse? t).isSome then none
      else some (.failure (.unsupportedReference t (some p))) := rfl
  have named : (Outline.reference t).bare.typeName? = (Reference.parse? t).map Reference.typeName := rfl
  rw [result_leaf p (.reference t) rfl, offends, named, text]
  cases Reference.parse? t <;> rfl

theorem result_basic (p : String) (b : Basic) :
    (Outline.basic b).result p = .ok ⟨b.text, [], []⟩ := by
  rw [result_leaf p (.basic b) rfl, text]
  rfl

theorem result_enumeration (p first : String) (rest : List String) :
    (Outline.enumeration first rest).result p =
      .ok ⟨Text.joinWith " | " ((first :: rest).map TypeText.literal), [], first :: rest⟩ := by
  rw [result_leaf p (.enumeration first rest) rfl, text]
  rfl

theorem result_unwritable (p : String) :
    Outline.unwritable.result p = .error (.malformed .numberTooLong) := by
  rw [result_leaf p .unwritable rfl]
  rfl

theorem result_arrayWithoutItems (p : String) :
    Outline.arrayWithoutItems.result p =
      .error (.failure (.schema .arrayWithoutItems (some p))) := by
  rw [result_leaf p .arrayWithoutItems rfl]
  rfl

theorem result_record_nil (p : String) : (Outline.record []).result p = .ok ⟨"\x7b\x7d", [], []⟩ := by
  rw [result_leaf p (.record []) rfl, text]
  rfl

theorem text_of_result {p : String} {o : Outline} {r : Resolved} (success : o.result p = .ok r) :
    r.text = o.text := by
  unfold result at success
  split at success <;> cases success
  rfl

theorem result_orNull (p : String) (o : Outline) (null : Bool) :
    (o.orNull null).result p =
      (o.result p).map fun r => { r with text := r.text ++ if null then " | null" else "" } := by
  unfold result resolved names
  rw [visits_orNull]
  cases (o.visits p).findSome? offence? with
  | some s => rfl
  | none => cases null <;> simp [orNull, text, literals, Except.map]

end Outline

/-! ### One step of resolving -/

section Step

variable {g : Graph} {active : List NodeId} {v : Value} {es : Entries}

theorem resolveWithin_other (other : g.entries? v = none) (p : String) :
    resolveWithin g active v p = .ok ⟨"any", [], []⟩ := by
  unfold resolveWithin
  split
  · next view => simp [Graph.entries?, view] at other
  · rfl

theorem resolveWithin_reference (entries : g.entries? v = some es)
    (reference : g.truthy (es.field "$ref") = true) (p : String) :
    resolveWithin g active v p = resolveReference es p := by
  obtain ⟨id, -, view⟩ := Graph.view_of_entries? entries
  unfold resolveWithin
  split
  · next view' =>
    cases view.symm.trans view'
    rw [if_pos reference]
  · next other => exact absurd view (other _ _)

theorem resolveWithin_again {id : NodeId} (entries : g.entries? (.node id) = some es)
    (inline : g.truthy (es.field "$ref") = false) (again : id ∈ active) (p : String) :
    resolveWithin g active (.node id) p = fail (.cyclicSchema cycleMessage (some p)) := by
  obtain ⟨id', same, view⟩ := Graph.view_of_entries? entries
  cases same
  rw [resolveWithin]
  split
  · next view' =>
    cases view.symm.trans view'
    rw [if_neg (by simp [inline]), dif_pos again]
  · next other => exact absurd view (other _ _)

theorem resolveWithin_mapping {id : NodeId} (entries : g.entries? (.node id) = some es)
    (inline : g.truthy (es.field "$ref") = false) (new : id ∉ active) (p : String) :
    resolveWithin g active (.node id) p =
      resolveMapping (resolveWithin g (id :: active)) g es p := by
  obtain ⟨id', same, view⟩ := Graph.view_of_entries? entries
  cases same
  rw [resolveWithin]
  split
  · next view' =>
    cases view.symm.trans view'
    rw [if_neg (by simp [inline]), dif_neg new]
  · next other => exact absurd view (other _ _)

end Step

/-! ### One form -/

theorem Form.of?_cases {g : Graph} {v : Value} {null : Bool} {f : Form}
    (form : Form.of? g v = some (null, f)) :
    (g.entries? v = none ∧ null = false ∧ f = .leaf .any) ∨
    (∃ es t, g.entries? v = some es ∧ g.truthy (es.field "$ref") = true ∧
      es.field "$ref" = .text t ∧ null = false ∧ f = .leaf (.reference t)) ∨
    (∃ es, g.entries? v = some es ∧ g.truthy (es.field "$ref") = false ∧
      null = g.truthy (es.field "nullable") ∧ Form.ofMapping? g es = some f) := by
  unfold Form.of? at form
  split at form
  · next other => exact .inl ⟨other, by simpa using form.symm⟩
  · next es entries =>
    split at form
    · next reference =>
      split at form
      · next t text => exact .inr (.inl ⟨es, t, entries, reference, text, by simpa using form.symm⟩)
      · cases form
    · next inline =>
      obtain ⟨f, mapping, same⟩ := Option.map_eq_some_iff.mp form
      cases same
      exact .inr (.inr ⟨es, entries, by simpa using inline, rfl, mapping⟩)

section Mapping

variable {g : Graph} {es : Entries} {f : Form} {os : List Outline}
  {inner : Value → String → Result Resolved}

theorem mapM_textOf (vs : List Value) :
    vs.mapM g.textOf =
      if vs.all g.hasText then .ok (vs.map g.display) else malformed .numberTooLong := by
  induction vs with
  | nil => rfl
  | cons v vs ih =>
    rw [List.mapM_cons, ih, Graph.textOf]
    by_cases here : g.hasText v <;> by_cases there : vs.all g.hasText <;> simp [here, there] <;> rfl

theorem resolveReference_eq_result {t : String} (text : es.field "$ref" = .text t) (p : String) :
    resolveReference es p = (Outline.reference t).result p := by
  have named : (Value.text t).asReference = .ok t := rfl
  rw [resolveReference, text, named, Except.ok_bind, component, Outline.result_reference]
  cases Reference.parse? t <;> rfl

/-- A schema of a string kind has nothing inside it. -/
theorem resolveString_eq_result (string : Form.ofString? g es = some f) (p : String) :
    ∃ o, f = .leaf o ∧ resolveString g es = o.result p := by
  unfold Form.ofString? at string
  unfold resolveString enumeration
  split at string
  · next binary =>
    cases string
    exact ⟨_, rfl, by rw [if_pos binary, Outline.result_basic]; rfl⟩
  · next text =>
    rw [if_neg text]
    split at string
    · cases string
    · next values stated =>
      simp only [stated, bind, Except.bind, mapM_textOf]
      split at string
      · next none =>
        cases string
        exact ⟨_, rfl, by rw [none, Outline.result_basic]; rfl⟩
      · next first rest some =>
        rw [some]
        split at string
        · next written =>
          cases string
          exact ⟨_, rfl, by rw [if_pos written, Outline.result_enumeration]; rfl⟩
        · next unwritten =>
          cases string
          exact ⟨_, rfl, by rw [if_neg unwritten, Outline.result_unwritable]; rfl⟩

variable {o : Outline} {null : Bool}

theorem result_extend (structural : o.literals = []) (p : String) :
    (do return (← o.result p).extend (if null then " | null" else "")) =
      (o.orNull null).result p := by
  rw [Outline.result_orNull, Outline.result]
  cases (o.visits p).findSome? Outline.offence? with
  | some s => rfl
  | none => simp [bind, Except.bind, pure, Except.pure, Except.map, Resolved.extend,
      Outline.resolved, structural]

/-- A reference is neither a union nor an intersection. -/
theorem HasOutline.isCompound_of_isReference {v : Value} (outline : HasOutline g v o)
    (reference : isReference g v = true) : o.isCompound = false := by
  obtain ⟨form, -, -⟩ := outline
  rcases Form.of?_cases form with ⟨other, -⟩ | ⟨es, t, -, -, -, rfl, rfl⟩ | ⟨es, entries, inline, -⟩
  · simp [isReference, other] at reference
  · rfl
  · simp [isReference, entries, inline] at reference

theorem resolveArray_eq_result (items : es.field "items" ≠ .null)
    (outline : HasOutline g (es.field "items") o)
    (resolves : ∀ q, inner (es.field "items") q = o.result q) (p : String) :
    resolveArray inner g es p =
      (Outline.array (!isReference g (es.field "items") && isComposed g (es.field "items"))
        o).result p := by
  unfold resolveArray
  rw [if_neg items]
  simp only [resolves]
  refine Outline.bind_part (o := .array _ o) rfl rfl
    (fun r => ⟨if !isReference g (es.field "items") &&
      (isComposed g (es.field "items") || TypeText.isCompound r.text) then "(" ++ r.text ++ ")[]"
        else r.text ++ "[]", r.imports, []⟩) ?_
  have grouped : (!isReference g (es.field "items") &&
      (isComposed g (es.field "items") || TypeText.isCompound o.text)) =
      (!isReference g (es.field "items") && isComposed g (es.field "items") || o.isCompound) := by
    rw [Outline.isCompound_text]
    cases reference : isReference g (es.field "items") with
    | true => simp [outline.isCompound_of_isReference reference]
    | false => simp
  simp only [Outline.resolved, grouped, Outline.text, Outline.literals, Outline.names_eq p,
    Outline.inner, Outline.bare, Outline.typeName?, List.flatMap_singleton, Option.toList_none,
    List.nil_append]

theorem resolveMap_eq_result {values : Value} (resolves : ∀ q, inner values q = o.result q)
    (p : String) :
    (do
      let r ← inner values (p ++ "/additionalProperties")
      return ⟨mapText r.text, r.imports, []⟩) = (Outline.map o).result p := by
  simp only [resolves]
  refine Outline.bind_part (o := .map o) rfl rfl (fun r => ⟨mapText r.text, r.imports, []⟩) ?_
  simp only [Outline.resolved, Outline.text, Outline.literals, Outline.names_eq p,
    Outline.inner, Outline.bare, Outline.typeName?, List.flatMap_singleton, Option.toList_none,
    List.nil_append]

/-- The members of a composition, one after the other, each with its index. -/
theorem mapM_zipIdx {vs : List Value} {os : List Outline} (length : vs.length = os.length)
    (resolves : ∀ e ∈ vs.zip os, ∀ q, inner e.1 q = e.2.result q) (path : Nat → String) (k : Nat) :
    (vs.zipIdx k).mapM (fun (v, index) => inner v (path index)) =
      (os.zipIdx k).mapM fun (o, index) => o.result (path index) := by
  induction vs generalizing os k with
  | nil => rw [List.length_eq_zero_iff.mp length.symm]; rfl
  | cons v vs ih =>
    obtain ⟨o, os, rfl⟩ := List.exists_cons_of_length_eq_add_one length.symm
    simp only [List.zip_cons_cons, List.mem_cons, forall_eq_or_imp] at resolves
    simp only [List.zipIdx_cons, List.mapM_cons, resolves.1]
    rw [ih (by simpa using length) resolves.2]

theorem resolveComposition_eq_result {members first : Value} {rest : List Value}
    (elements : g.elements? members = some (first :: rest)) {os : List Outline}
    (length : (first :: rest).length = (o :: os).length)
    (resolves : ∀ e ∈ (first :: rest).zip (o :: os), ∀ q, inner e.1 q = e.2.result q)
    (c : Composition) (p : String) :
    resolveComposition inner g c members p = (Outline.composition c o os).result p := by
  have listed : g.elements members = .ok (first :: rest) := by simp [Graph.elements, elements]
  have parts := mapM_zipIdx length resolves (fun i => p ++ ("/" ++ c.key ++ "/" ++ toString i)) 0
  rw [← Outline.bind_parts (o := .composition c o os) rfl
    (fun parts => .join (Text.joinWith c.operator (parts.map (·.text))) parts)]
  · simp only [resolveComposition, listed, Outline.inner, List.map_map, List.mapM_map,
      String.append_assoc, Except.ok_bind] at parts ⊢
    rw [parts]
    rfl
  · have texts : ((Outline.composition c o os).inner.map fun e => e.2.resolved (p ++ e.1)).map
        (·.text) = (o :: os).map Outline.text := by
      rw [Outline.inner, List.map_map, List.map_map]
      change (o :: os).zipIdx.map (Outline.text ∘ Prod.fst) = _
      rw [← List.map_map, List.zipIdx_map_fst]
    have joined := Outline.join_resolved (p := p) (o := .composition c o os) rfl rfl
    rw [Outline.text] at joined
    rw [texts]
    exact joined

theorem zip_map_zip {α β γ : Type} (l : List α) (l' : List β) (f : α × β → γ) :
    l.zip ((l.zip l').map f) = (l.zip l').map fun e => (e.1, f e) := by
  induction l generalizing l' with
  | nil => rfl
  | cons x l ih =>
    cases l' with
    | nil => rfl
    | cons y l' => simp [ih]

/-- The properties of a record, one after the other, each with its name and its mark. -/
theorem mapM_properties {required : List Scalar} {properties : Entries}
    {members : List (Member Value)}
    (named : properties.mapM (Form.member? required) = some members) {os : List Outline}
    (length : members.length = os.length)
    (resolves : ∀ e ∈ (members.map (·.type)).zip os, ∀ q, inner e.1 q = e.2.result q) (p : String) :
    (properties.mapM fun (key, property) => do
      let r ← inner property (p ++ (← key.textOf))
      let name ← (Value.scalar key).asName
      return (memberText (TypeText.propertyKey name) (required.any key.same) r.text, r)) =
    (((members.zip os).map fun e => (p ++ e.1.name, e.2)).mapM fun c => c.2.result c.1) >>=
      fun parts => .ok ((members.zip parts).map fun e =>
        (memberText (TypeText.propertyKey e.1.name) e.1.required e.2.text, e.2)) := by
  induction properties generalizing members os with
  | nil =>
    cases named
    rfl
  | cons property properties ih =>
    obtain ⟨key, value⟩ := property
    rw [List.mapM_cons] at named
    simp only [Option.bind_eq_bind, Option.bind_eq_some_iff, Option.pure_def, Option.some.injEq]
      at named
    obtain ⟨m, head, members, tail, rfl⟩ := named
    obtain ⟨o, os, rfl⟩ := List.exists_cons_of_length_eq_add_one length.symm
    simp only [List.map_cons, List.zip_cons_cons, List.mem_cons, forall_eq_or_imp] at resolves
    have rest := ih tail (by simpa using length) resolves.2
    cases key with
    | text name =>
      cases head
      have key : (Scalar.text name).textOf = .ok name := rfl
      have known : (Value.scalar (.text name)).asName = .ok name := rfl
      simp only [List.mapM_cons, List.zip_cons_cons, List.map_cons, key, known, Except.ok_bind,
        resolves.1, rest]
      cases o.result (p ++ name) with
      | error e => rfl
      | ok r =>
        cases ((members.zip os).map fun e => (p ++ e.1.name, e.2)).mapM fun c =>
          c.2.result c.1 <;> rfl
    | _ => cases head

theorem resolveProperties_eq_result {required : List Scalar} {properties : Entries}
    {members : List (Member Value)} (requires : requiredNames g es = .ok required)
    (named : properties.mapM (Form.member? required) = some members) {os : List Outline}
    (length : members.length = os.length)
    (resolves : ∀ e ∈ (members.map (·.type)).zip os, ∀ q, inner e.1 q = e.2.result q) (p : String) :
    resolveProperties inner g es properties p =
      ((Form.record members).outline os).result p := by
  have listed := mapM_properties named length resolves (p ++ "/properties/")
  have innerEq : ((Form.record members).outline os).inner =
      (members.zip os).map fun e => ("/properties/" ++ e.1.name, e.2) := by
    simp [Form.outline, Outline.inner]
  rw [← Outline.bind_parts (o := (Form.record members).outline os) rfl fun parts =>
    .join (recordText ((members.zip parts).map fun e =>
      memberText (TypeText.propertyKey e.1.name) e.1.required e.2.text))
      ((members.zip parts).map (·.2))]
  · unfold resolveProperties
    rw [requires, Except.ok_bind, listed, innerEq, List.map_map]
    simp only [String.append_assoc, bind_assoc, Except.ok_bind, List.map_map]
    rfl
  · have joined := Outline.join_resolved (p := p) (o := (Form.record members).outline os) rfl rfl
    rw [innerEq] at joined ⊢
    rw [← joined, List.map_map, zip_map_zip]
    simp [Form.outline, Outline.text, Function.comp_def, Outline.resolved]

variable {os : List Outline}

/-- The type of a schema by its structure is the result of its outline. -/
theorem resolveStructure_eq_result (structural : Form.ofStructure? g es = some f)
    (length : f.inner.length = os.length)
    (resolves : ∀ e ∈ f.inner.zip os, ∀ q, inner e.1 q = e.2.result q) (p : String) :
    resolveStructure inner g es p = (f.outline os).result p ∧ (f.outline os).literals = [] := by
  unfold Form.ofStructure? at structural
  unfold resolveStructure
  cases composed : composition? g es with
  | some found =>
    obtain ⟨c, members⟩ := found
    simp only [composed] at structural ⊢
    split at structural
    · next first rest elements =>
      cases structural
      obtain ⟨o, os, rfl⟩ := List.exists_cons_of_length_eq_add_one length.symm
      exact ⟨resolveComposition_eq_result elements length resolves c p, rfl⟩
    · cases structural
  | none =>
    simp only [composed] at structural ⊢
    cases stated : g.entries? (es.field "properties") with
    | some properties =>
      simp only [stated] at structural ⊢
      split at structural
      · cases structural
      · next required requires =>
        obtain ⟨members, named, rfl⟩ := Option.map_eq_some_iff.mp structural
        rw [Form.inner, List.length_map] at length
        exact ⟨resolveProperties_eq_result requires named length resolves p, rfl⟩
    | none =>
      simp only [stated] at structural ⊢
      split at structural
      · next empty =>
        cases structural
        rw [if_pos empty]
        split
        · exact ⟨(Outline.result_record_nil p).symm, rfl⟩
        · exact ⟨(Outline.result_any p).symm, rfl⟩
      · next stated =>
        cases structural
        rw [if_neg stated]
        obtain ⟨o, rfl⟩ := List.length_eq_one_iff.mp length.symm
        have values := resolves (es.field "additionalProperties", o) List.mem_cons_self
        exact ⟨resolveMap_eq_result values p, rfl⟩

theorem resolveItems_eq_result (length : (Form.ofItems g (es.field "items")).inner.length = os.length)
    (outlines : ∀ e ∈ (Form.ofItems g (es.field "items")).inner.zip os, HasOutline g e.1 e.2)
    (resolves : ∀ e ∈ (Form.ofItems g (es.field "items")).inner.zip os, ∀ q,
      inner e.1 q = e.2.result q) (p : String) :
    resolveArray inner g es p = ((Form.ofItems g (es.field "items")).outline os).result p ∧
      ((Form.ofItems g (es.field "items")).outline os).literals = [] := by
  unfold Form.ofItems at length outlines resolves ⊢
  split at length
  · next empty =>
    rw [if_pos empty, Form.outline, Outline.result_arrayWithoutItems, resolveArray]
    exact ⟨by rw [if_pos empty]; rfl, rfl⟩
  · next stated =>
    rw [if_neg stated] at outlines resolves ⊢
    obtain ⟨o, rfl⟩ := List.length_eq_one_iff.mp length.symm
    have outline := outlines (es.field "items", o) List.mem_cons_self
    have items := resolves (es.field "items", o) List.mem_cons_self
    exact ⟨resolveArray_eq_result stated outline items p, rfl⟩

/-- The type of a mapping is the result of its outline, if the schemas inside it have theirs. -/
theorem resolveMapping_eq_result (mapping : Form.ofMapping? g es = some f)
    (length : f.inner.length = os.length)
    (outlines : ∀ e ∈ f.inner.zip os, HasOutline g e.1 e.2)
    (resolves : ∀ e ∈ f.inner.zip os, ∀ q, inner e.1 q = e.2.result q) (p : String) :
    resolveMapping inner g es p =
      ((f.outline os).orNull (g.truthy (es.field "nullable"))).result p := by
  unfold Form.ofMapping? at mapping
  unfold resolveMapping
  split at mapping
  · cases mapping
  · next kind =>
    cases mapping
    rw [kind, Form.outline, Outline.result_orNull, Outline.result_basic]
    rfl
  · next kind =>
    cases mapping
    rw [kind, Form.outline, Outline.result_orNull, Outline.result_basic]
    rfl
  · next kind =>
    cases mapping
    obtain ⟨array, plain⟩ := resolveItems_eq_result length outlines resolves p
    rw [kind, ← result_extend plain, ← array]
    rfl
  · next kind =>
    obtain ⟨o, rfl, string⟩ := resolveString_eq_result mapping p
    rw [kind, Form.outline, Outline.result_orNull, ← string]
    rfl
  · next kind =>
    obtain ⟨structural, plain⟩ := resolveStructure_eq_result mapping length resolves p
    rw [kind, ← result_extend plain, ← structural]
    rfl

end Mapping

/-! ### Whole schemas -/

theorem Form.sizeOf_lt {f : Form} {os : List Outline} (length : f.inner.length = os.length)
    (e : Value × Outline) (member : e ∈ f.inner.zip os) : sizeOf e.2 < sizeOf (f.outline os) := by
  suffices inside : ∃ step, (step, e.2) ∈ (f.outline os).inner by
    obtain ⟨step, inside⟩ := inside
    exact Outline.sizeOf_lt_of_mem_inner _ _ inside
  cases f with
  | leaf o => cases member
  | array composed items =>
    obtain ⟨o, rfl⟩ := List.length_eq_one_iff.mp length.symm
    cases List.mem_singleton.mp member
    exact ⟨_, List.mem_cons_self⟩
  | map values =>
    obtain ⟨o, rfl⟩ := List.length_eq_one_iff.mp length.symm
    cases List.mem_singleton.mp member
    exact ⟨_, List.mem_cons_self⟩
  | composition c first rest =>
    obtain ⟨o, os, rfl⟩ := List.exists_cons_of_length_eq_add_one length.symm
    exact Outline.exists_mem_inner (List.of_mem_zip member).2
  | record members =>
    rw [inner, List.zip_map_left] at member
    obtain ⟨e', inside, rfl⟩ := List.mem_map.mp member
    refine ⟨"/properties/" ++ e'.1.name, List.mem_map.mpr ⟨⟨e'.1.name, e'.1.required, e'.2⟩, ?_, rfl⟩⟩
    exact List.mem_map.mpr ⟨e', inside, rfl⟩

theorem Outline.sizeOf_le_orNull (o : Outline) (null : Bool) : sizeOf o ≤ sizeOf (o.orNull null) := by
  cases null
  · exact Nat.le_refl _
  · simp [orNull]

/-- A schema resolves to the result of its outline inside any mappings with larger outlines. -/
theorem HasOutline.resolveWithin_eq_result {g : Graph} {v : Value} {o : Outline}
    (outline : HasOutline g v o) {active : List NodeId}
    (above : ∀ id ∈ active, ∀ o', HasOutline g (.node id) o' → sizeOf o < sizeOf o') (p : String) :
    resolveWithin g active v p = o.result p := by
  induction outline generalizing active p with
  | @intro v null f os form length inner ih =>
    have whole : HasOutline g v ((f.outline os).orNull null) := ⟨form, length, inner⟩
    rcases Form.of?_cases form with ⟨other, rfl, rfl⟩ | ⟨es, t, entries, reference, text, rfl, rfl⟩ |
      ⟨es, entries, inline, rfl, mapping⟩
    · rw [resolveWithin_other other]
      exact (Outline.result_any p).symm
    · rw [resolveWithin_reference entries reference]
      exact resolveReference_eq_result text p
    · obtain ⟨id, rfl, -⟩ := Graph.view_of_entries? entries
      have new : id ∉ active := fun member => Nat.lt_irrefl _ (above id member _ whole)
      rw [resolveWithin_mapping entries inline new]
      refine resolveMapping_eq_result mapping length inner (fun e member q => ?_) p
      refine ih e member (fun id' hid o' outline' => ?_) q
      have smaller := Nat.lt_of_lt_of_le (Form.sizeOf_lt length e member)
        (Outline.sizeOf_le_orNull (f.outline os) (g.truthy (es.field "nullable")))
      rcases List.mem_cons.mp hid with rfl | hid
      · rwa [outline'.unique whole]
      · exact Nat.lt_trans smaller (above id' hid o' outline')

/-- A schema with an outline resolves to the result of the outline. -/
theorem HasOutline.resolve_eq_result {g : Graph} {v : Value} {o : Outline}
    (outline : HasOutline g v o) (p : String) : resolve g v p = o.result p :=
  outline.resolveWithin_eq_result (by simp) p

end Schema

end TypedClient
