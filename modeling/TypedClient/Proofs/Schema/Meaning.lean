import TypedClient.Proofs.Schema.Existence
import TypedClient.Proofs.TypeText.Writing

/-!
# What the text of a schema means

The type that a schema stands for, and what its text is read as. The two differ in one place: the
members of `allOf` are joined by `&` without parentheses, so that a member which is a union is torn
apart. The main statement says that a text is read as the type of its schema exactly where this does
not happen and everything that is named in it can be written.
-/
namespace TypedClient

namespace Schema

namespace Outline

open TypeText (Factor Reads isWord isUnbroken)

/-- The type of an outline, given how the members of `allOf` come together. -/
def build (all : List TypeText.Reading → TypeText.Reading) : Outline → TypeText.Reading
  | .any => [[.name "any"]]
  | .reference t => [[.name (((Reference.parse? t).map Reference.typeName).getD "")]]
  | .basic b => [[.name b.text]]
  | .enumeration first rest => (first :: rest).map fun v => [.literal v]
  | .unwritable | .arrayWithoutItems => [[.name ""]]
  | .array _ items => [[.array (items.build all)]]
  | .composition .allOf first rest => all (first.build all :: rest.map (build all))
  | .composition _ first rest => first.build all ++ rest.flatMap (build all)
  | .record members => [[.record (members.map fun m => ⟨m.name, m.required, m.type.build all⟩)]]
  | .map values => [[.map (values.build all)]]
  | .nullable inner => inner.build all ++ [[.name "null"]]
termination_by o => o
decreasing_by
  all_goals first
    | (have smaller := sizeOf_type_lt (by assumption); simp; omega)
    | (have smaller := List.sizeOf_lt_of_mem (by assumption); simp; omega)
    | (simp; done)
    | (simp; omega)

/-- The type that a schema stands for: `allOf` is the intersection of its members, `oneOf` and
`anyOf` are unions, and null comes as another alternative of the whole. -/
def type : Outline → TypeText.Reading := build TypeText.Reading.meet

/-- The type that the text of a schema is read as. -/
def asWritten : Outline → TypeText.Reading := build TypeText.Reading.chain

/-- A union of several types. -/
def isUnion : Outline → Bool
  | .nullable _ => true
  | .enumeration _ rest => !rest.isEmpty
  | .composition c first rest => if rest.isEmpty then first.isUnion else c ≠ .allOf
  | _ => false

/-- No union is an operand of an intersection. -/
def IsGrouped : Outline → Prop
  | .composition .allOf first (second :: rest) =>
    ∀ m ∈ first :: second :: rest, m.isUnion = false
  | _ => True

/-- Everything that is named at a node can be written: a reference as a word, a value of an
enumeration and the name of a property without a line break. -/
def IsSpelled : Outline → Prop
  | .reference t => ∃ r, Reference.parse? t = some r ∧ isWord r.typeName
  | .enumeration first rest => ∀ v ∈ first :: rest, isUnbroken v
  | .record members => ∀ m ∈ members, isUnbroken m.name
  | .unwritable | .arrayWithoutItems => False
  | _ => True

/-! ### The text is read as it is written -/

section Lists

variable {α : Type} {text : α → String} {type : α → TypeText.Reading}

theorem reads_bars {first : α} {rest : List α}
    (each : ∀ x ∈ first :: rest, Reads (text x).toList (type x)) :
    Reads (Text.joinWith " | " ((first :: rest).map text)).toList
      ((first :: rest).flatMap type) := by
  induction rest generalizing first with
  | nil => simpa [Text.joinWith] using each first
  | cons second rest ih =>
    have here := each first List.mem_cons_self
    have behind := ih fun x hx => each x (List.mem_cons_of_mem _ hx)
    have joined := here.bar behind
    rw [List.map_cons, List.map_cons, Text.joinWith, String.toList_append, String.toList_append,
      List.append_assoc, List.flatMap_cons]
    exact joined

theorem reads_ampersands {first : α} {rest : List α}
    (each : ∀ x ∈ first :: rest, Reads (text x).toList (type x)) :
    Reads (Text.joinWith " & " ((first :: rest).map text)).toList
      (TypeText.Reading.chain ((first :: rest).map type)) := by
  induction rest generalizing first with
  | nil => simpa [Text.joinWith, TypeText.Reading.chain] using each first
  | cons second rest ih =>
    have here := each first List.mem_cons_self
    have behind := ih fun x hx => each x (List.mem_cons_of_mem _ hx)
    have joined := here.ampersand behind
    rw [List.map_cons, List.map_cons, Text.joinWith, String.toList_append, String.toList_append,
      List.append_assoc]
    exact joined

theorem reads_members {first : Member Outline} {rest : List (Member Outline)}
    {build : Outline → TypeText.Reading}
    (each : ∀ m ∈ first :: rest, isUnbroken m.name ∧ Reads m.type.text.toList (build m.type)) :
    TypeText.ReadsMembers (Text.joinWith "; " ((first :: rest).map fun m =>
        memberText (TypeText.propertyKey m.name) m.required m.type.text)).toList
      ((first :: rest).map fun m => ⟨m.name, m.required, build m.type⟩) := by
  induction rest generalizing first with
  | nil =>
    obtain ⟨unbroken, reads⟩ := each first List.mem_cons_self
    exact (TypeText.readsMember unbroken first.required reads).last
  | cons second rest ih =>
    obtain ⟨unbroken, reads⟩ := each first List.mem_cons_self
    have here := TypeText.readsMember unbroken first.required reads
    have joined := here.cons (ih fun m hm => each m (List.mem_cons_of_mem _ hm))
    rw [List.map_cons, List.map_cons, Text.joinWith, String.toList_append, String.toList_append,
      List.append_assoc]
    exact joined

end Lists

theorem isSimple_asWritten {o : Outline} (simple : o.isCompound = false) :
    ∃ f, o.asWritten = [[f]] := by
  unfold asWritten
  induction o with
  | enumeration first rest =>
    have single : rest = [] := by simpa [isCompound] using simple
    subst single
    simp only [build, List.map_cons, List.map_nil]
    exact ⟨_, rfl⟩
  | composition c first rest ihFirst _ =>
    simp only [isCompound, Bool.or_eq_false_iff, Bool.not_eq_false', List.isEmpty_iff] at simple
    obtain ⟨rfl, simple⟩ := simple
    obtain ⟨f, same⟩ := ihFirst simple
    cases c <;> exact ⟨f, by simp [build, same, TypeText.Reading.chain]⟩
  | nullable o _ => cases simple
  | _ =>
    simp only [build]
    exact ⟨_, rfl⟩

/-- The text of an outline is read as it is written, if everything in it can be written. -/
theorem reads_text (o : Outline) {p : String} (spelled : ∀ c ∈ o.visits p, c.2.IsSpelled) :
    Reads o.text.toList o.asWritten := by
  unfold asWritten
  induction o generalizing p with
  | any =>
    simp only [text, build]
    exact TypeText.reads_name (by decide)
  | reference t =>
    obtain ⟨r, parsed, word⟩ := (forall_visits_iff.mp spelled).1
    simp only [text, build, parsed, Option.map_some, Option.getD_some]
    exact TypeText.reads_name word
  | basic b =>
    simp only [text, build]
    cases b <;> exact TypeText.reads_name (by decide)
  | enumeration first rest =>
    have unbroken := (forall_visits_iff.mp spelled).1
    have joined := reads_bars fun v hv => TypeText.reads_literal (unbroken v hv)
    rw [← List.map_eq_flatMap] at joined
    simp only [text, build]
    exact joined
  | unwritable => exact (forall_visits_iff.mp spelled).1.elim
  | arrayWithoutItems => exact (forall_visits_iff.mp spelled).1.elim
  | array composed items ih =>
    have inside := (forall_visits_iff.mp spelled).2 ("/items", items) List.mem_cons_self
    have reads := ih inside
    simp only [text, build]
    split
    · rw [toList_group]
      exact reads.groupArray
    · next plain =>
      rw [Bool.or_eq_true, not_or, Bool.not_eq_true, Bool.not_eq_true] at plain
      obtain ⟨f, single⟩ := isSimple_asWritten plain.2
      unfold asWritten at single
      rw [single] at reads ⊢
      rw [String.toList_append]
      exact reads.array
  | composition c first rest ihFirst ihRest =>
    have inside := (forall_visits_iff.mp spelled).2
    have each : ∀ m ∈ first :: rest, Reads m.text.toList (m.build TypeText.Reading.chain) := by
      intro m hm
      obtain ⟨step, member⟩ := exists_mem_inner (c := c) hm
      rcases List.mem_cons.mp hm with rfl | hm
      · exact ihFirst (inside _ member)
      · exact ihRest m hm (inside _ member)
    simp only [text]
    rw [← List.map_cons (f := text)]
    cases c with
    | allOf =>
      simp only [build]
      exact reads_ampersands each
    | oneOf =>
      simp only [build]
      exact reads_bars each
    | anyOf =>
      simp only [build]
      exact reads_bars each
  | record members ih =>
    obtain ⟨unbroken, inside⟩ := forall_visits_iff.mp spelled
    simp only [text, build]
    cases members with
    | nil => exact TypeText.reads_record_nil
    | cons first rest =>
      rw [toList_recordText]
      refine (reads_members fun m hm => ⟨unbroken m hm, ?_⟩).record
      exact ih m hm (inside ("/properties/" ++ m.name, m.type) (List.mem_map.mpr ⟨m, hm, rfl⟩))
  | map values ih =>
    have inside := (forall_visits_iff.mp spelled).2 ("/additionalProperties", values)
      List.mem_cons_self
    simp only [text, build]
    rw [toList_mapText, String.toList_append]
    exact (ih inside).map
  | nullable o ih =>
    rw [visits_nullable] at spelled
    have null : Reads ("null").toList [[.name "null"]] := TypeText.reads_name (by decide)
    have joined := (ih spelled).bar null
    simp only [text, build]
    rw [String.toList_append]
    exact joined

/-! ### Where both are the same -/

theorem build_ne_nil {all : List TypeText.Reading → TypeText.Reading}
    (some : ∀ t ts, t ≠ [] → all (t :: ts) ≠ []) (o : Outline) : o.build all ≠ [] := by
  induction o with
  | enumeration first rest => simp [build]
  | composition c first rest ihFirst _ =>
    cases c with
    | allOf =>
      simp only [build]
      exact some _ _ ihFirst
    | _ => simp [build, ihFirst]
  | nullable o _ => simp [build]
  | _ => simp [build]

theorem type_ne_nil (o : Outline) : o.type ≠ [] := by
  refine build_ne_nil (fun t ts stated => ?_) o
  cases ts with
  | nil => exact stated
  | cons u ts => simp [TypeText.Reading.meet]

/-- A schema that is no union has one alternative, and a union has more. -/
theorem isUnion_eq_false_iff (o : Outline) : o.isUnion = false ↔ ∃ fs, o.type = [fs] := by
  have single : ∀ t : TypeText.Reading, t ≠ [] → ∀ u, u ≠ [] → ∀ fs, t ++ u ≠ [fs] := by
    intro t ht u hu fs same
    have lengths := congrArg List.length same
    have first := List.length_pos_iff.mpr ht
    have second := List.length_pos_iff.mpr hu
    simp only [List.length_append, List.length_singleton] at lengths
    omega
  induction o with
  | enumeration first rest => cases rest <;> simp [isUnion, type, build]
  | composition c first rest ihFirst _ =>
    cases rest with
    | nil =>
      rw [isUnion, List.isEmpty_nil, if_pos rfl]
      refine ihFirst.trans ?_
      unfold type
      cases c <;> simp [build, TypeText.Reading.meet]
    | cons second rest =>
      have inside : second.type ++ rest.flatMap type ≠ [] := by simp [type_ne_nil second]
      cases c with
      | allOf => simp [isUnion, type, build, TypeText.Reading.meet]
      | oneOf =>
        have several := single _ first.type_ne_nil _ inside
        unfold type at several
        simpa [isUnion, type, build] using several
      | anyOf =>
        have several := single _ first.type_ne_nil _ inside
        unfold type at several
        simpa [isUnion, type, build] using several
  | nullable o _ =>
    have several := single _ o.type_ne_nil [[Factor.name "null"]] (by simp)
    unfold type at several
    simpa [isUnion, type, build] using several
  | _ => simp [isUnion, type, build]

/-- Where no union is an operand of an intersection, the text is read as the type of the schema. -/
theorem type_eq_asWritten (o : Outline) {p : String} (grouped : ∀ c ∈ o.visits p, c.2.IsGrouped) :
    o.type = o.asWritten := by
  unfold type asWritten
  induction o generalizing p with
  | array composed items ih =>
    have inside := (forall_visits_iff.mp grouped).2 ("/items", items) List.mem_cons_self
    simp only [build, ih inside]
  | composition c first rest ihFirst ihRest =>
    obtain ⟨here, inside⟩ := forall_visits_iff.mp grouped
    have each : ∀ m ∈ first :: rest,
        m.build TypeText.Reading.meet = m.build TypeText.Reading.chain := by
      intro m hm
      obtain ⟨step, member⟩ := exists_mem_inner (c := c) hm
      rcases List.mem_cons.mp hm with rfl | hm
      · exact ihFirst (inside _ member)
      · exact ihRest m hm (inside _ member)
    have others : rest.map (build TypeText.Reading.meet) =
        rest.map (build TypeText.Reading.chain) :=
      List.map_congr_left fun m hm => each m (List.mem_cons_of_mem _ hm)
    have first_ := each first List.mem_cons_self
    cases c with
    | allOf =>
      simp only [build, ← others, ← first_]
      symm
      cases rest with
      | nil => rfl
      | cons second rest =>
        refine TypeText.Reading.chain_eq_meet (by simp) fun t ht => ?_
        rw [← List.map_cons (f := build TypeText.Reading.meet)] at ht
        obtain ⟨m, hm, rfl⟩ := List.mem_map.mp ht
        exact (isUnion_eq_false_iff m).mp (here m hm)
    | _ =>
      simp only [build, first_, List.flatMap_def, others]
  | record members ih =>
    have inside := (forall_visits_iff.mp grouped).2
    have same :
        (members.map fun m =>
          Member.mk m.name m.required (m.type.build TypeText.Reading.meet)) =
        members.map fun m => Member.mk m.name m.required (m.type.build TypeText.Reading.chain) := by
      refine List.map_congr_left fun m hm => ?_
      have member : ("/properties/" ++ m.name, m.type) ∈ (record members).inner :=
        List.mem_map.mpr ⟨m, hm, rfl⟩
      rw [ih m hm (inside _ member)]
    simp only [build, same]
  | map values ih =>
    have inside := (forall_visits_iff.mp grouped).2 ("/additionalProperties", values)
      List.mem_cons_self
    simp only [build, ih inside]
  | nullable o ih =>
    rw [visits_nullable] at grouped
    simp only [build, ih grouped]
  | _ => simp only [build]

/-! ### Where they differ -/

/-- No text of a schema is read with a union as an operand of an intersection. -/
theorem no_group_asWritten (o : Outline) : o.asWritten.All fun f => ¬f.IsGroup := by
  unfold asWritten
  have leaf : ∀ f : Factor, ¬f.IsGroup → f.inner = [] →
      TypeText.Reading.All (fun f => ¬f.IsGroup) [[f]] := fun f single empty =>
    TypeText.Reading.all_single (.intro single (by simp [empty]))
  induction o with
  | enumeration first rest =>
    simp only [build]
    intro f hf
    rw [List.map_eq_flatMap, List.mem_flatten] at hf
    obtain ⟨fs, hfs, hf⟩ := hf
    simp only [List.mem_flatMap, List.mem_singleton] at hfs
    obtain ⟨v, -, rfl⟩ := hfs
    rw [List.mem_singleton.mp hf]
    exact .intro id (by simp [Factor.inner])
  | array composed items ih =>
    simp only [build]
    exact TypeText.Reading.all_single (.intro id ih)
  | composition c first rest ihFirst ihRest =>
    have union : TypeText.Reading.All (fun f => ¬f.IsGroup)
        (rest.flatMap (build TypeText.Reading.chain)) := by
      intro f hf
      obtain ⟨fs, hfs, hf⟩ := List.mem_flatten.mp hf
      obtain ⟨m, hm, hfs⟩ := List.mem_flatMap.mp hfs
      exact ihRest m hm f (List.mem_flatten.mpr ⟨fs, hfs, hf⟩)
    cases c with
    | allOf =>
      simp only [build]
      refine TypeText.Reading.all_chain fun t ht => ?_
      rcases List.mem_cons.mp ht with rfl | ht
      · exact ihFirst
      · obtain ⟨m, hm, rfl⟩ := List.mem_map.mp ht
        exact ihRest m hm
    | _ =>
      simp only [build]
      exact ihFirst.append union
  | record members ih =>
    simp only [build]
    refine TypeText.Reading.all_single (.intro id fun f hf => ?_)
    simp only [Factor.inner, List.flatMap_map, List.mem_flatMap] at hf
    obtain ⟨m, hm, hf⟩ := hf
    exact ih m hm f hf
  | map values ih =>
    simp only [build]
    exact TypeText.Reading.all_single (.intro id ih)
  | nullable o ih =>
    simp only [build]
    exact ih.append (leaf _ id rfl)
  | _ =>
    simp only [build]
    exact leaf _ id rfl

section Parts

variable {q : Factor → Prop} {o : Outline}

theorem all_type_bare (all : o.type.All q) : o.bare.type.All q := by
  induction o with
  | nullable o ih =>
    refine ih fun f hf => all f ?_
    simp only [type, build, List.flatten_append, List.mem_append] at hf ⊢
    exact .inl hf
  | _ => exact all

theorem all_type_inner (all : o.type.All q) : ∀ i ∈ o.inner, i.2.type.All q := by
  unfold type at all ⊢
  induction o with
  | array composed items _ =>
    simp only [build] at all
    have items : (items.build TypeText.Reading.meet).All q := all.single.inside
    simpa [inner] using items
  | composition c first rest _ _ =>
    intro i hi
    obtain ⟨⟨m, index⟩, hm, rfl⟩ := List.mem_map.mp hi
    have member := List.fst_mem_of_mem_zipIdx hm
    cases c with
    | allOf =>
      simp only [build] at all
      rw [← List.map_cons (f := build TypeText.Reading.meet)] at all
      exact TypeText.Reading.all_of_mem_meet all _ (List.mem_map_of_mem member)
    | _ =>
      simp only [build] at all
      rw [← List.flatMap_cons (f := build TypeText.Reading.meet)] at all
      intro f hf
      obtain ⟨fs, hfs, hf⟩ := List.mem_flatten.mp hf
      exact all f (List.mem_flatten.mpr ⟨fs, List.mem_flatMap.mpr ⟨m, member, hfs⟩, hf⟩)
  | record members _ =>
    simp only [build] at all
    have types := all.single.inside
    simp only [inner, List.mem_map, forall_exists_index, and_imp]
    rintro _ m hm rfl f hf
    refine types f ?_
    simp only [Factor.inner, List.flatMap_map, List.mem_flatMap]
    exact ⟨m, hm, hf⟩
  | map values _ =>
    simp only [build] at all
    have values : (values.build TypeText.Reading.meet).All q := all.single.inside
    simpa [inner] using values
  | nullable o ih =>
    refine ih fun f hf => all f ?_
    simp only [build, List.flatten_append, List.mem_append]
    exact .inl hf
  | _ => simp [inner]

/-- What holds of everything in the type of a schema holds in the type of each node. -/
theorem all_type_of_mem_visits (o : Outline) (all : o.type.All q) {p : String}
    {c : String × Outline} (visited : c ∈ o.visits p) : c.2.type.All q := by
  rw [visits_eq, List.mem_cons, List.mem_flatMap] at visited
  rcases visited with rfl | ⟨i, inside, deeper⟩
  · exact all_type_bare all
  · have smaller := o.sizeOf_lt_of_mem_inner i inside
    exact all_type_of_mem_visits i.2 (all_type_inner all i inside) deeper
termination_by sizeOf o

theorem not_isSpelled_empty : ¬(Factor.name "").IsSpelled := by
  change ¬isWord "" = true
  decide

theorem isSpelled_of_all (all : o.type.All Factor.IsSpelled) : o.IsSpelled := by
  unfold type at all
  cases o with
  | reference t =>
    simp only [build] at all
    have word := all.single.here
    cases parsed : Reference.parse? t with
    | none =>
      simp only [parsed, Option.map_none, Option.getD_none] at word
      exact absurd word not_isSpelled_empty
    | some r =>
      simp only [parsed, Option.map_some, Option.getD_some] at word
      exact ⟨r, parsed, word⟩
  | enumeration first rest =>
    simp only [build] at all
    intro v hv
    have unbroken : (Factor.literal v).All Factor.IsSpelled := all _ (by
      rw [List.mem_flatten]
      exact ⟨[.literal v], List.mem_map.mpr ⟨v, hv, rfl⟩, List.mem_singleton.mpr rfl⟩)
    exact unbroken.here
  | record members =>
    simp only [build] at all
    intro m hm
    exact all.single.here _ (List.mem_map.mpr ⟨m, hm, rfl⟩)
  | unwritable =>
    simp only [build] at all
    exact absurd all.single.here not_isSpelled_empty
  | arrayWithoutItems =>
    simp only [build] at all
    exact absurd all.single.here not_isSpelled_empty
  | _ => trivial

theorem isGrouped_of_all (all : o.type.All fun f => ¬f.IsGroup) : o.IsGrouped := by
  unfold IsGrouped
  split
  · next first second rest =>
    intro m hm
    rw [isUnion_eq_false_iff]
    simp only [type, build, List.map_cons] at all
    have types : m.type ∈ type first :: type second :: rest.map type := by
      rw [← List.map_cons, ← List.map_cons]
      exact List.mem_map_of_mem hm
    have operands : ∀ f ∈ m.type.operands, ¬f.IsGroup := by
      intro f hf
      refine (all f ?_).here
      simp only [TypeText.Reading.meet, List.flatten_cons, List.flatten_nil, List.append_nil]
      exact List.mem_flatMap.mpr ⟨m.type, types, hf⟩
    unfold TypeText.Reading.operands at operands
    split at operands
    · next fs same => exact ⟨fs, same⟩
    · exact absurd trivial (operands _ List.mem_cons_self)
  · trivial

end Parts

end Outline

/-- The text that a schema resolves to is read as the type of the schema exactly if no visited
`allOf` of several members has a union among them and everything that is named can be written. -/
theorem read_text_iff {g : Graph} {v : Value} {p : String} {r : Resolved}
    (success : resolve g v p = .ok r) :
    ∃ o, HasOutline g v o ∧
      (TypeText.read r.text = some o.type ↔
        ∀ c ∈ o.visits p, c.2.IsGrouped ∧ c.2.IsSpelled) := by
  obtain ⟨o, outline, result⟩ := exists_outline_of_resolve success
  refine ⟨o, outline, ?_⟩
  rw [Outline.text_of_result result]
  constructor
  · intro reads
    have spelled := TypeText.isSpelled_of_read reads
    have each : ∀ c ∈ o.visits p, c.2.IsSpelled := fun c visited =>
      Outline.isSpelled_of_all (o.all_type_of_mem_visits spelled visited)
    have written := TypeText.read_of_reads (o.reads_text each)
    have same : o.type = o.asWritten := Option.some.inj (reads.symm.trans written)
    have ungrouped := o.no_group_asWritten
    rw [← same] at ungrouped
    exact fun c visited =>
      ⟨Outline.isGrouped_of_all (o.all_type_of_mem_visits ungrouped visited), each c visited⟩
  · intro each
    rw [o.type_eq_asWritten fun c visited => (each c visited).1]
    exact TypeText.read_of_reads (o.reads_text fun c visited => (each c visited).2)

/-- A pet that has a home in one of two places. -/
def housedPet : Graph :=
  ⟨#[.mapping [(.text "allOf", .node 1)],
     .list [.node 2, .node 3],
     .mapping [(.text "$ref", .text "#/components/schemas/Pet")],
     .mapping [(.text "type", .text "array"), (.text "items", .node 4)],
     .mapping [(.text "oneOf", .node 5)],
     .list [.node 6, .node 7],
     .mapping [(.text "$ref", .text "#/components/schemas/House")],
     .mapping [(.text "$ref", .text "#/components/schemas/Barn")]]⟩

theorem housed_pet_reads_back :
    resolve housedPet (.node 0) "#" =
        .ok ⟨"Pet & (House | Barn)[]", ["Pet", "House", "Barn"], []⟩ ∧
      TypeText.read "Pet & (House | Barn)[]" =
        some [[.name "Pet", .array [[.name "House"], [.name "Barn"]]]] ∧
      ∃ o, HasOutline housedPet (.node 0) o ∧
        (TypeText.read "Pet & (House | Barn)[]" = some o.type ↔
          ∀ c ∈ o.visits "#", c.2.IsGrouped ∧ c.2.IsSpelled) := by
  have success : resolve housedPet (.node 0) "#" =
      .ok ⟨"Pet & (House | Barn)[]", ["Pet", "House", "Barn"], []⟩ := by
    with_unfolding_all rfl
  exact ⟨success, by with_unfolding_all rfl, read_text_iff success⟩

/-- Both a cat or dog and a pet. -/
def catOrDogPet : Graph :=
  ⟨#[.mapping [(.text "allOf", .node 1)],
     .list [.node 2, .node 6],
     .mapping [(.text "oneOf", .node 3)],
     .list [.node 4, .node 5],
     .mapping [(.text "$ref", .text "#/components/schemas/Cat")],
     .mapping [(.text "$ref", .text "#/components/schemas/Dog")],
     .mapping [(.text "$ref", .text "#/components/schemas/Pet")]]⟩

def catOrDogPetOutline : Outline :=
  .composition .allOf
    (.composition .oneOf (.reference "#/components/schemas/Cat")
      [.reference "#/components/schemas/Dog"])
    [.reference "#/components/schemas/Pet"]

theorem hasOutline_catOrDogPet : HasOutline catOrDogPet (.node 0) catOrDogPetOutline := by
  have reference : ∀ id t, Form.of? catOrDogPet (.node id) = some (false, .leaf (.reference t)) →
      HasOutline catOrDogPet (.node id) (.reference t) := by
    intro id t form
    have whole : HasOutline catOrDogPet (.node id)
        (((Form.leaf (.reference t)).outline []).orNull false) :=
      .intro form rfl (by simp [Form.inner])
    exact whole
  have cat := reference 4 "#/components/schemas/Cat" rfl
  have dog := reference 5 "#/components/schemas/Dog" rfl
  have pet := reference 6 "#/components/schemas/Pet" rfl
  have either : HasOutline catOrDogPet (.node 2)
      (((Form.composition .oneOf (.node 4) [.node 5]).outline
        [.reference "#/components/schemas/Cat", .reference "#/components/schemas/Dog"]).orNull
          false) := .intro rfl rfl (by simp [Form.inner, cat, dog])
  have inside : ∀ e ∈ [Value.node 2, .node 6].zip
      [.composition .oneOf (.reference "#/components/schemas/Cat")
        [.reference "#/components/schemas/Dog"], .reference "#/components/schemas/Pet"],
      HasOutline catOrDogPet e.1 e.2 := by
    simp only [List.zip_cons_cons, List.zip_nil_right, List.mem_cons, List.not_mem_nil, or_false,
      forall_eq_or_imp, forall_eq]
    exact ⟨either, pet⟩
  have both : HasOutline catOrDogPet (.node 0)
      (((Form.composition .allOf (.node 2) [.node 6]).outline
        [_, .reference "#/components/schemas/Pet"]).orNull false) :=
    .intro rfl rfl inside
  exact both

/-- The schema says that it is a pet in any case; what is read is a cat or else a dog and pet. -/
theorem union_in_allOf_is_torn_apart :
    resolve catOrDogPet (.node 0) "#" = .ok ⟨"Cat | Dog & Pet", ["Cat", "Dog", "Pet"], []⟩ ∧
      HasOutline catOrDogPet (.node 0) catOrDogPetOutline ∧
      catOrDogPetOutline.type = [[.group [[.name "Cat"], [.name "Dog"]], .name "Pet"]] ∧
      TypeText.read "Cat | Dog & Pet" ≠ some catOrDogPetOutline.type := by
  have read : TypeText.read "Cat | Dog & Pet" =
      some [[.name "Cat"], [.name "Dog", .name "Pet"]] := by
    with_unfolding_all rfl
  have type : catOrDogPetOutline.type =
      [[.group [[.name "Cat"], [.name "Dog"]], .name "Pet"]] := by
    simp only [catOrDogPetOutline, Outline.type, Outline.build, List.map_cons, List.map_nil,
      List.flatMap_cons, List.flatMap_nil]
    rfl
  refine ⟨by with_unfolding_all rfl, hasOutline_catOrDogPet, type, ?_⟩
  rw [read, type]
  intro same
  cases same

end Schema

end TypedClient
