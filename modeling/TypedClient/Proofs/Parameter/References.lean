import Mathlib.Data.List.Nodup
import TypedClient.Parameter
import TypedClient.Proofs.Schema.References

/-!
# What parameters refer to

The type of a parameter refers to what the schema in its declaration refers to. Each declaration
that is in force is one of those that the route or the operation states, and no other one in force
has its name and place.
-/
namespace TypedClient

variable {g : Graph}

namespace Declaration

/-- What a declaration is told apart by: of two with one key, the later is in force. -/
def key (d : Declaration) : String × String := (d.name, d.place)

theorem map_key_override (ds : List Declaration) (d : Declaration) :
    (override ds d).map key = if d.key ∈ ds.map key then ds.map key else ds.map key ++ [d.key] := by
  induction ds with
  | nil => rfl
  | cons e rest ih =>
    unfold override
    by_cases same : e.name = d.name ∧ e.place = d.place
    · have equal : e.key = d.key := Prod.ext same.1 same.2
      simp [same, equal]
    · have other : ¬d.key = e.key := fun equal =>
        same ⟨(congrArg Prod.fst equal).symm, (congrArg Prod.snd equal).symm⟩
      rw [if_neg same, List.map_cons, ih, List.map_cons]
      by_cases listed : d.key ∈ rest.map key <;> simp [listed, other]

theorem nodup_key_foldl_override {ds ds' : List Declaration} (distinct : (ds.map key).Nodup) :
    ((ds'.foldl override ds).map key).Nodup := by
  induction ds' generalizing ds with
  | nil => exact distinct
  | cons d ds' ih =>
    refine ih ?_
    rw [map_key_override]
    split
    · exact distinct
    · next new => exact List.nodup_append.mpr ⟨distinct, by simp, by simpa using new⟩

theorem mem_of_mem_override {ds : List Declaration} {d e : Declaration}
    (member : d ∈ override ds e) : d ∈ ds ∨ d = e := by
  induction ds with
  | nil => exact .inr (List.mem_singleton.mp member)
  | cons first ds ih =>
    unfold override at member
    split at member
    · rcases List.mem_cons.mp member with rfl | member
      · exact .inr rfl
      · exact .inl (List.mem_cons_of_mem _ member)
    · rcases List.mem_cons.mp member with rfl | member
      · exact .inl List.mem_cons_self
      · exact (ih member).imp_left (List.mem_cons_of_mem _)

theorem mem_of_mem_foldl_override {ds ds' : List Declaration} {d : Declaration}
    (member : d ∈ ds'.foldl override ds) : d ∈ ds ∨ d ∈ ds' := by
  induction ds' generalizing ds with
  | nil => exact .inl member
  | cons e ds' ih =>
    rcases ih member with member | member
    · rcases mem_of_mem_override member with member | rfl
      · exact .inl member
      · exact .inr List.mem_cons_self
    · exact .inr (List.mem_cons_of_mem _ member)

section Merge

variable {components : Value} {p : String} {shared own : Result (List Value)}
  {ds : List Declaration}

/-- A declaration in force is one of those that the route or the operation states. -/
theorem exists_ofValue_of_merge (success : merge g components p shared own = .ok ds) :
    ∀ d ∈ ds, ∃ q v, ((∃ vs, shared = .ok vs ∧ v ∈ vs) ∨ ∃ vs, own = .ok vs ∧ v ∈ vs) ∧
      ofValue g components q v = .ok d := by
  obtain ⟨vs, stated, success⟩ := Except.bind_eq_ok success
  obtain ⟨ds₁, declared, success⟩ := Except.bind_eq_ok success
  obtain ⟨vs', stated', success⟩ := Except.bind_eq_ok success
  obtain ⟨ds₂, declared', success⟩ := Except.bind_eq_ok success
  cases success
  intro d member
  have member := (mem_of_mem_foldl_override member).resolve_left List.not_mem_nil
  rcases List.mem_append.mp member with member | member
  · obtain ⟨⟨v, index⟩, indexed, here⟩ := Except.exists_mem_of_mapM declared d member
    exact ⟨_, v, .inl ⟨vs, stated, List.fst_mem_of_mem_zipIdx indexed⟩, here⟩
  · obtain ⟨⟨v, index⟩, indexed, here⟩ := Except.exists_mem_of_mapM declared' d member
    exact ⟨_, v, .inr ⟨vs', stated', List.fst_mem_of_mem_zipIdx indexed⟩, here⟩

theorem nodup_key_of_merge (success : merge g components p shared own = .ok ds) :
    (ds.map key).Nodup := by
  obtain ⟨vs, -, success⟩ := Except.bind_eq_ok success
  obtain ⟨ds₁, -, success⟩ := Except.bind_eq_ok success
  obtain ⟨vs', -, success⟩ := Except.bind_eq_ok success
  obtain ⟨ds₂, -, success⟩ := Except.bind_eq_ok success
  cases success
  exact nodup_key_foldl_override List.nodup_nil

theorem place_of_isIn {v : Value} {place : String} {d : Declaration}
    (success : ofValue g components p v = .ok d) (inPlace : d.isIn g place = true) :
    d.place = place := by
  obtain ⟨w, -, success⟩ := Except.bind_eq_ok success
  obtain ⟨es, -, success⟩ := Except.bind_eq_ok success
  obtain ⟨name, -, success⟩ := Except.bind_eq_ok success
  obtain ⟨place', stated, success⟩ := Except.bind_eq_ok success
  cases success
  have text := Graph.eq_text_of_view (of_decide_eq_true inPlace)
  simp only at text
  rw [text] at stated
  exact (Except.ok.inj stated).symm

/-- At most one declaration in force has a given name and place. -/
theorem eq_of_isIn (success : merge g components p shared own = .ok ds) {place : String}
    {d e : Declaration} (member : d ∈ ds) (other : e ∈ ds) (inPlace : d.isIn g place = true)
    (too : e.isIn g place = true) (same : d.name = e.name) : d = e := by
  obtain ⟨_, _, -, first⟩ := exists_ofValue_of_merge success d member
  obtain ⟨_, _, -, second⟩ := exists_ofValue_of_merge success e other
  refine List.inj_on_of_nodup_map (nodup_key_of_merge success) member other (Prod.ext same ?_)
  exact (place_of_isIn first inPlace).trans (place_of_isIn second too).symm

end Merge

end Declaration

namespace Parameter

variable {p : String} {param : Parameter}

/-- The type of a parameter uses the names that its schema refers to. -/
theorem mem_imports_of_ofFields {name : Option String} {es : Entries}
    (success : ofFields g p name es = .ok param) (n : String) :
    n ∈ param.type.imports ↔ Schema.Refers g (es.field "schema") n := by
  have resolves : Schema.resolve g (es.field "schema") (p ++ "/schema") = .ok param.type := by
    unfold ofFields at success
    simp only at success
    -- whichever way the name is found, the type is resolved next
    split at success
    all_goals
      obtain ⟨name', -, success⟩ := Except.bind_eq_ok success
      obtain ⟨type, resolves, success⟩ := Except.bind_eq_ok success
      cases success
      exact resolves
  exact Schema.mem_imports_iff resolves n

theorem mem_imports_of_ofQuery {ds : List Declaration} (success : ofQuery g p ds = .ok param)
    (n : String) :
    n ∈ param.type.imports ↔ ∃ d ∈ ds, Schema.Refers g (d.fields.field "schema") n := by
  obtain ⟨members, each, success⟩ := Except.bind_eq_ok success
  cases success
  rw [Resolved.join, Text.mem_distinct, List.mem_flatMap]
  constructor
  · rintro ⟨type, listed, needed⟩
    obtain ⟨member, compiled, rfl⟩ := List.mem_map.mp listed
    obtain ⟨d, declared, success⟩ := Except.exists_mem_of_mapM each member compiled
    exact ⟨d, declared, (mem_imports_of_ofFields success n).mp needed⟩
  · rintro ⟨d, declared, refers⟩
    obtain ⟨member, compiled, success⟩ := Except.exists_of_mapM each d declared
    exact ⟨member.type, List.mem_map_of_mem compiled,
      (mem_imports_of_ofFields success n).mpr refers⟩

theorem mem_sort_iff {ps : List Parameter} : param ∈ sort ps ↔ param ∈ ps := by
  constructor
  · intro member
    obtain ⟨rank, -, member⟩ := List.mem_flatMap.mp member
    exact (List.mem_filter.mp member).1
  · intro member
    have ranked : param.rank ∈ [0, 1, 2] := by
      unfold rank
      split
      · decide
      · split <;> decide
    exact List.mem_flatMap.mpr ⟨_, ranked, List.mem_filter.mpr ⟨member, by simp⟩⟩

end Parameter

end TypedClient
