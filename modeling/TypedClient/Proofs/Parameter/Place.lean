import TypedClient.Parameter
import TypedClient.Proofs.Schema.Tree

/-!
# Where parameters are declared

The place of a declaration only matters to what is said about it when it is malformed. A parameter
that is compiled in one place is compiled to the same in any other.
-/
namespace TypedClient

variable {g : Graph} {components : Value} {p : String}

theorem Schema.component_anywhere {t : String} {pointer : Option String} {r : Reference}
    (success : component t pointer = .ok r) (pointer' : Option String) :
    component t pointer' = .ok r := by
  unfold component at success ⊢
  split at success
  · exact success
  · cases success

namespace Declaration

theorem dereference_anywhere {v w : Value} (success : dereference g components p v = .ok w)
    (q : String) : dereference g components q v = .ok w := by
  unfold dereference at success ⊢
  split at success
  · next inline => rw [if_pos inline]; exact success
  · next reference =>
    rw [if_neg reference]
    obtain ⟨es, entries, success⟩ := Except.bind_eq_ok success
    obtain ⟨t, stated, success⟩ := Except.bind_eq_ok success
    obtain ⟨r, parsed, success⟩ := Except.bind_eq_ok success
    rw [entries, Except.ok_bind, stated, Except.ok_bind, Schema.component_anywhere parsed,
      Except.ok_bind]
    split at success
    · cases success
    · next parameter =>
      rw [if_neg parameter]
      obtain ⟨found?, found, success⟩ := Except.bind_eq_ok success
      rw [found, Except.ok_bind]
      cases found? with
      | none => cases success
      | some w' => exact success

theorem ofValue_anywhere {v : Value} {d : Declaration} (success : ofValue g components p v = .ok d)
    (q : String) : ofValue g components q v = .ok d := by
  obtain ⟨w, found, success⟩ := Except.bind_eq_ok success
  unfold ofValue
  rw [dereference_anywhere found q]
  exact success

theorem ofList_anywhere {vs : List Value} {ds : List Declaration}
    (success : ofList g components p vs = .ok ds) (q : String) :
    ofList g components q vs = .ok ds :=
  Except.mapM_of_mapM (fun _ _ here => ofValue_anywhere here _) success

theorem merge_anywhere {shared own : Result (List Value)} {ds : List Declaration}
    (success : merge g components p shared own = .ok ds) (q : String) :
    merge g components q shared own = .ok ds := by
  obtain ⟨vs, stated, success⟩ := Except.bind_eq_ok success
  obtain ⟨ds₁, declared, success⟩ := Except.bind_eq_ok success
  obtain ⟨vs', stated', success⟩ := Except.bind_eq_ok success
  obtain ⟨ds₂, declared', success⟩ := Except.bind_eq_ok success
  unfold merge
  rw [stated, Except.ok_bind, ofList_anywhere declared, Except.ok_bind, stated', Except.ok_bind,
    ofList_anywhere declared', Except.ok_bind]
  exact success

end Declaration

namespace Parameter

/-- The name of a parameter: the given one, or else the declared one. -/
def statedName (g : Graph) (name : Option String) (es : Entries) : Result String :=
  match name.filter (· ≠ ""), Entries.lookup? es (.text "name") with
  | some n, _ => .ok n
  | none, some declared => g.textOf declared
  | none, none => .ok ""

/-- The default value of a parameter, if it has one. -/
def default? (g : Graph) (es : Entries) : Option Value :=
  let default := (g.fields (es.field "schema")).field "default"
  if default = .null then none else some default

theorem ofFields_eq_ok_iff {name : Option String} {es : Entries} {param : Parameter} :
    ofFields g p name es = .ok param ↔
      statedName g name es = .ok param.name ∧
        Schema.resolve g (es.field "schema") (p ++ "/schema") = .ok param.type ∧
        param.required = g.truthy (es.field "required") ∧ param.default = default? g es := by
  have bound : ofFields g p name es = statedName g name es >>= fun name =>
      Schema.resolve g (es.field "schema") (p ++ "/schema") >>= fun type =>
        .ok ⟨name, type, g.truthy (es.field "required"), default? g es⟩ := by
    unfold ofFields statedName default?
    rw [Graph.field_fields]
    cases name.filter (· ≠ "") with
    | some n => rfl
    | none => cases Entries.lookup? es (.text "name") <;> rfl
  rw [bound]
  constructor
  · intro success
    obtain ⟨name', named, success⟩ := Except.bind_eq_ok success
    obtain ⟨type, resolves, success⟩ := Except.bind_eq_ok success
    cases success
    exact ⟨named, resolves, rfl, rfl⟩
  · rintro ⟨named, resolves, required, default⟩
    rw [named, Except.ok_bind, resolves, Except.ok_bind, ← required, ← default]

theorem ofFields_anywhere {name : Option String} {es : Entries} {param : Parameter}
    (success : ofFields g p name es = .ok param) (q : String) : ofFields g q name es = .ok param := by
  obtain ⟨named, resolves, rest⟩ := ofFields_eq_ok_iff.mp success
  exact ofFields_eq_ok_iff.mpr ⟨named, Schema.resolve_anywhere resolves _, rest⟩

/-- A name that is given and not empty is that of the parameter. -/
theorem name_of_ofFields {name : String} {es : Entries} {param : Parameter}
    (success : ofFields g p (some name) es = .ok param) (named : name ≠ "") : param.name = name := by
  have stated := (ofFields_eq_ok_iff.mp success).1
  unfold statedName at stated
  rw [Option.filter_some, if_pos (decide_eq_true named)] at stated
  exact (Except.ok.inj stated).symm

end Parameter

end TypedClient
