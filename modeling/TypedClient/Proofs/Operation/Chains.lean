import TypedClient.Proofs.Operation.Bindings
import TypedClient.Proofs.Parameter.Merge

/-!
# Parameters at the end of chains of references

A component of parameters may itself be a reference to another one. Only the first reference of such a
chain is followed: what it leads to is declared as it is, and where that is a reference again it states
no name and no place, so that the operation is compiled without the parameter at the end.
-/
namespace TypedClient

namespace Declaration

variable {g : Graph} {components v w : Value} {n : Nat}

/-- The value is a reference, and following so many references from it ends at a component that is
none. -/
inductive Chain (g : Graph) (components : Value) : Nat → Value → Value → Prop
  | last {v w : Value} (refers : RefersTo g components v w)
    (inline : Schema.isReference g w = false) : Chain g components 1 v w
  | further {n : Nat} {v u w : Value} (refers : RefersTo g components v u)
    (rest : Chain g components n u w) : Chain g components (n + 1) v w

namespace Chain

theorem ne_zero (chain : Chain g components n v w) : n ≠ 0 := by
  cases chain <;> exact Nat.succ_ne_zero _

theorem isReference (chain : Chain g components n v w) : Schema.isReference g v = true := by
  cases chain with
  | last refers => exact refers.isReference
  | further refers => exact refers.isReference

theorem inline (chain : Chain g components n v w) : Schema.isReference g w = false := by
  induction chain with
  | last refers inline => exact inline
  | further refers rest ih => exact ih

/-- The first reference of a chain leads to its end exactly if it is the only one. -/
theorem refersTo_iff (chain : Chain g components n v w) : RefersTo g components v w ↔ n = 1 := by
  cases chain with
  | last refers inline => exact iff_of_true refers rfl
  | @further n v u w refers rest =>
    refine iff_of_false (fun atOnce => ?_) fun one => rest.ne_zero (Nat.succ.inj one)
    obtain rfl := refers.unique atOnce
    exact Bool.false_ne_true (rest.inline.symm.trans rest.isReference)

theorem standsFor_iff (chain : Chain g components n v w) : StandsFor g components v w ↔ n = 1 := by
  rw [← chain.refersTo_iff]
  refine ⟨fun stands => ?_, .component⟩
  cases stands with
  | itself inline mapping => exact absurd chain.isReference (Bool.not_eq_true _ ▸ inline)
  | component refers => exact refers

theorem dereference_iff (chain : Chain g components n v w) (p : String) :
    dereference g components p v = .ok w ↔ n = 1 := by
  rw [dereference_eq_ok_iff, ← chain.refersTo_iff, chain.isReference]
  simp

/-- Of several references the second one is what the first is followed to. -/
theorem exists_dereference (chain : Chain g components n v w) (several : n ≠ 1) :
    ∃ u, Schema.isReference g u = true ∧ ∀ p, dereference g components p v = .ok u := by
  cases chain with
  | last refers inline => exact absurd rfl several
  | further refers rest => exact ⟨_, rest.isReference, refers.dereference_eq⟩

end Chain

/-! ### Declarations of lists that have been merged -/

/-- The entry is declared as this. -/
structure IsDeclaredAs (g : Graph) (components : Value) (v : Value) (d : Declaration) : Prop where
  stands : StandsFor g components v d.value
  declares : Declares g d.value d

theorem isDeclaredAs_of_ofValue {p : String} {d : Declaration}
    (success : ofValue g components p v = .ok d) : IsDeclaredAs g components v d := by
  obtain ⟨w, stands, declares⟩ := ofValue_eq_ok_iff.mp success
  obtain rfl := declares.value
  exact ⟨stands, declares⟩

theorem forall₂_of_ofList {base : String} {vs : List Value} {ds : List Declaration}
    (success : ofList g components base vs = .ok ds) :
    List.Forall₂ (IsDeclaredAs g components) vs ds := by
  rw [← List.zipIdx_map_fst 0 vs, List.forall₂_map_left_iff]
  exact (forall₂_of_mapM success).imp fun _ _ => isDeclaredAs_of_ofValue

/-- Where lists have been merged each entry is declared, and in force is what no later one overrides. -/
theorem exists_overridden {shared own : List Value} {p : String} {ds : List Declaration}
    (success : merge g components p (.ok shared) (.ok own) = .ok ds) :
    ∃ all, List.Forall₂ (IsDeclaredAs g components) (shared ++ own) all ∧ Overridden all ds := by
  obtain ⟨_, ⟨⟩, success⟩ := Except.bind_eq_ok success
  obtain ⟨all, ofShared, success⟩ := Except.bind_eq_ok success
  obtain ⟨_, ⟨⟩, success⟩ := Except.bind_eq_ok success
  obtain ⟨all', ofOwn, success⟩ := Except.bind_eq_ok success
  cases success
  exact ⟨all ++ all', List.rel_append (forall₂_of_ofList ofShared) (forall₂_of_ofList ofOwn),
    overridden_foldl _⟩

/-- The two parameters have one name and one place. -/
def SameKey (g : Graph) (w w' : Value) : Prop :=
  g.display ((g.fields w).field "name") = g.display ((g.fields w').field "name") ∧
    g.display ((g.fields w).field "in") = g.display ((g.fields w').field "in")

theorem Declares.sameKey {w' : Value} {d d' : Declaration} (declares : Declares g w d)
    (declares' : Declares g w' d') (same : d'.key = d.key) : SameKey g w' w := by
  rw [key, key, Prod.mk.injEq, declares.name, declares.place, declares'.name, declares'.place] at same
  exact same

theorem exists_of_forall₂_append {α β : Type} {R : α → β → Prop} {before after : List α} {x : α}
    {ys : List β} (each : List.Forall₂ R (before ++ x :: after) ys) :
    ∃ before' y after', ys = before' ++ y :: after' ∧ R x y ∧ List.Forall₂ R after after' := by
  induction before generalizing ys with
  | nil =>
    obtain ⟨y, after', here, rest, rfl⟩ := List.forall₂_cons_left_iff.mp each
    exact ⟨[], y, after', rfl, here, rest⟩
  | cons first before ih =>
    obtain ⟨y, ys, -, rest, rfl⟩ := List.forall₂_cons_left_iff.mp each
    obtain ⟨before', y', after', rfl, here, behind⟩ := ih rest
    exact ⟨y :: before', y', after', rfl, here, behind⟩

section Merged

variable {shared own before after : List Value} {p : String} {ds : List Declaration}
  (success : merge g components p (.ok shared) (.ok own) = .ok ds)

include success

/-- A parameter is in force if an entry stands for it and no later entry for one with its name and
place. -/
theorem exists_mem_of_final (here : shared ++ own = before ++ v :: after)
    (stands : StandsFor g components v w)
    (final : ∀ v' ∈ after, ∀ w', StandsFor g components v' w' → ¬SameKey g w' w) :
    ∃ d ∈ ds, d.value = w := by
  obtain ⟨all, each, overridden⟩ := exists_overridden success
  rw [here] at each
  obtain ⟨before', d, after', rfl, declared, behind⟩ := exists_of_forall₂_append each
  obtain rfl : d.value = w := Except.ok.inj
    ((declared.stands.dereference_eq "").symm.trans (stands.dereference_eq ""))
  refine ⟨d, overridden.kept rfl fun e later same => ?_, rfl⟩
  obtain ⟨v', among, other⟩ := exists_right_of_forall₂ behind.flip later
  exact final v' among e.value other.stands (declared.declares.sameKey other.declares same)

theorem exists_isDeclaredAs {d : Declaration} (member : d ∈ ds) :
    ∃ v ∈ shared ++ own, IsDeclaredAs g components v d := by
  obtain ⟨q, v, listed, declared⟩ := exists_ofValue_of_merge success d member
  refine ⟨v, List.mem_append.mpr (listed.imp ?_ ?_), isDeclaredAs_of_ofValue declared⟩
  · rintro ⟨_, ⟨⟩, inside⟩
    exact inside
  · rintro ⟨_, ⟨⟩, inside⟩
    exact inside

end Merged

end Declaration

namespace Operation

open Declaration (Chain RefersTo StandsFor SameKey)

variable {g : Graph} {slot : Slot} {o : Operation} {v w : Value} {n : Nat}

/-- The operation takes the parameter: in the record of the query, or for a placeholder of the
route. -/
inductive IsTaken (g : Graph) (slot : Slot) (o : Operation) (w : Value) : Prop
  | query {ds : List Declaration} {d : Declaration} {pointer : String} {param : Parameter}
    (stated : declared g slot = .ok ds) (member : d ∈ ds) (value : d.value = w)
    (here : d.isIn g "query" = true)
    (compiled : Parameter.ofQuery g pointer (ds.filter (Declaration.isIn g "query")) = .ok param)
    (taken : param ∈ o.parameters)
  | path {ds : List Declaration} {d : Declaration} {pointer : String} {param : Parameter}
    (stated : declared g slot = .ok ds) (member : d ∈ ds) (value : d.value = w)
    (here : d.isIn g "path" = true)
    (compiled : Parameter.ofFields g pointer (some (Naming.placeholderIdentifier d.name)) d.fields =
      .ok param)
    (taken : param ∈ o.parameters)

/-- The parameter is one of the query, or one in the path that has a placeholder. -/
def IsNeeded (g : Graph) (slot : Slot) (w : Value) : Prop :=
  g.view ((g.fields w).field "in") = .scalar (.text "query") ∨
    g.view ((g.fields w).field "in") = .scalar (.text "path") ∧
      g.display ((g.fields w).field "name") ∈ placeholders slot.verb slot.route.display

/-- The entry is one of the route or of the operation. No other entry stands for the parameter, and
none behind it for another one with its name and place. -/
structure IsOnlyWay (g : Graph) (slot : Slot) (v w : Value) : Prop where
  listed : ∃ shared own before after, slot.shared = .ok shared ∧
    g.optionalElements ((g.fields slot.operation).field "parameters") = .ok own ∧
    shared ++ own = before ++ v :: after ∧
    (∀ v' ∈ before ++ after, ¬StandsFor g slot.components v' w) ∧
    ∀ v' ∈ after, ∀ w', StandsFor g slot.components v' w' → ¬SameKey g w' w

/-- A parameter that only one entry can lead to is in force exactly if it stands for it. -/
theorem IsOnlyWay.mem_declared_iff (only : IsOnlyWay g slot v w) {ds : List Declaration}
    (stated : declared g slot = .ok ds) :
    (∃ d ∈ ds, d.value = w) ↔ StandsFor g slot.components v w := by
  obtain ⟨shared, own, before, after, ofShared, ofOwn, here, others, final⟩ := only.listed
  obtain ⟨route, -, merged⟩ := Except.bind_eq_ok stated
  rw [ofShared, ofOwn] at merged
  constructor
  · rintro ⟨d, member, rfl⟩
    obtain ⟨v', listed, declared⟩ := Declaration.exists_isDeclaredAs merged member
    rw [here, List.mem_append, List.mem_cons] at listed
    rcases listed with earlier | rfl | later
    · exact absurd declared.stands (others v' (List.mem_append_left _ earlier))
    · exact declared.stands
    · exact absurd declared.stands (others v' (List.mem_append_right _ later))
  · intro stands
    exact Declaration.exists_mem_of_final merged here stands final

/-- A parameter that is needed is taken by the operation if it is in force. -/
theorem IsNeeded.isTaken (needed : IsNeeded g slot w) {parts : Parts}
    (made : parts.Of g slot (g.fields slot.operation) o) {d : Declaration}
    (member : d ∈ parts.declared) (value : d.value = w) : IsTaken g slot o w := by
  obtain ⟨q, v', -, declared⟩ := Declaration.exists_ofValue_of_merge made.declared d member
  have declares := (Declaration.isDeclaredAs_of_ofValue declared).declares
  have fields : d.fields = g.fields w := by
    rw [← value, Graph.fields_of_entries? declares.fields]
  have given : ∀ param ∈ parts.given, param ∈ o.parameters := fun param inGiven => by
    rwa [made.parameters, Parts.parameters, Parameter.mem_sort_iff]
  rcases needed with inQuery | ⟨inPath, called⟩
  · have here : d.isIn g "query" = true := decide_eq_true (fields ▸ inQuery)
    have compiled := made.inQuery
    unfold queryParameter? at compiled
    have some : d ∈ parts.declared.filter (Declaration.isIn g "query") :=
      List.mem_filter.mpr ⟨member, here⟩
    rw [if_neg (by simp [List.ne_nil_of_mem some])] at compiled
    obtain ⟨param, compiled, same⟩ := Except.bind_eq_ok compiled
    refine .query made.declared_eq_ok member value here compiled (given param ?_)
    simp [Parts.given, ← Except.ok.inj same]
  · have here : d.isIn g "path" = true := decide_eq_true (fields ▸ inPath)
    have named : g.display ((g.fields w).field "name") = d.name := value ▸ declares.name.symm
    rw [named, made.display_route] at called
    obtain ⟨param, taken, success⟩ := Except.exists_of_mapM made.inPath _ called
    obtain ⟨d', member', here', same, compiled⟩ := exists_declaration_of_pathParameter success
    obtain rfl := Declaration.eq_of_isIn made.declared member' member here' here same
    refine .path made.declared_eq_ok member value here compiled (given param ?_)
    simp [Parts.given, taken]

/-- Of a chain of references the first one is followed. So an entry leads to the parameter at the end
exactly if the chain has one reference; otherwise it leads to a reference again. An operation takes
a parameter of the query, or one in the path that has a placeholder, to which only such an entry leads
exactly if the chain has one reference. -/
theorem references_are_followed_once (chain : Chain g slot.components n v w) :
    (∀ p, Declaration.dereference g slot.components p v = .ok w ↔ n = 1) ∧
    (n ≠ 1 → ∃ u, Schema.isReference g u = true ∧
      ∀ p, Declaration.dereference g slot.components p v = .ok u) ∧
    ∀ claimed o, (compile g slot claimed).1 = .ok o → IsOnlyWay g slot v w → IsNeeded g slot w →
      (IsTaken g slot o w ↔ n = 1) := by
  refine ⟨chain.dereference_iff, chain.exists_dereference, fun claimed o success only needed => ?_⟩
  obtain ⟨parts, made⟩ := exists_parts_of_compile success
  have inForce := only.mem_declared_iff made.declared_eq_ok
  rw [← chain.standsFor_iff, ← inForce]
  constructor
  · rintro (⟨stated, member, value, -⟩ | ⟨stated, member, value, -⟩)
    all_goals
      cases made.declared_eq_ok.symm.trans stated
      exact ⟨_, member, value⟩
  · rintro ⟨d, member, value⟩
    exact needed.isTaken made member value

/-- Pages of pets: a number of pets that is a reference to a component, and one that is a reference to
a component which refers to it. -/
def pagesGraph : Graph :=
  ⟨#[.mapping [(.text "parameters", .node 1)],
     .mapping [(.text "PageSize", .node 2), (.text "Limit", .node 3)],
     .mapping [(.text "name", .text "limit"), (.text "in", .text "query")],
     .mapping [(.text "$ref", .text "#/components/parameters/PageSize")],
     .mapping [(.text "$ref", .text "#/components/parameters/Limit")],
     .list [.node 3],
     .mapping [(.text "operationId", .text "listPets"), (.text "parameters", .node 5)],
     .list [.node 4],
     .mapping [(.text "operationId", .text "listOwners"), (.text "parameters", .node 7)]]⟩

def pagesSlot (operation : NodeId) : Slot :=
  ⟨"get", .text "/pets", .node operation, .ok [], .node 0⟩

theorem pageSize_is_referred_to :
    Declaration.RefersTo pagesGraph (.node 0) (.node 3) (.node 2) :=
  ⟨⟨"PageSize", by decide, by decide, by decide, by decide⟩, by decide⟩

theorem chain_of_one : Chain pagesGraph (.node 0) 1 (.node 3) (.node 2) :=
  .last pageSize_is_referred_to (by decide)

theorem chain_of_two : Chain pagesGraph (.node 0) 2 (.node 4) (.node 2) :=
  .further ⟨⟨"Limit", by decide, by decide, by decide, by decide⟩, by decide⟩ chain_of_one

/-- The page size one reference away is taken, the one two references away is not what is followed to. -/
theorem pets_are_listed_by_page_size :
    Chain pagesGraph (.node 0) 1 (.node 3) (.node 2) ∧
      (∃ o, (compile pagesGraph (pagesSlot 6) []).1 = .ok o ∧
        o.parameters.map (·.name) = ["params"] ∧
        IsTaken pagesGraph (pagesSlot 6) o (.node 2)) ∧
      Chain pagesGraph (.node 0) 2 (.node 4) (.node 2) ∧
      ∃ u, Schema.isReference pagesGraph u = true ∧
        ∀ p, Declaration.dereference pagesGraph (.node 0) p (.node 4) = .ok u := by
  have evaluated : (compile pagesGraph (pagesSlot 6) []).1.toOption.map
      (fun o => o.parameters.map (·.name)) = some ["params"] := by decide +kernel
  obtain ⟨o, success, names⟩ := Except.exists_of_map_toOption evaluated
  have only : IsOnlyWay pagesGraph (pagesSlot 6) (.node 3) (.node 2) :=
    ⟨[], [.node 3], [], [], rfl, rfl, rfl, nofun, nofun⟩
  have needed : IsNeeded pagesGraph (pagesSlot 6) (.node 2) := .inl (by decide)
  have one : Chain pagesGraph (pagesSlot 6).components 1 (.node 3) (.node 2) := chain_of_one
  have two : Chain pagesGraph (pagesSlot 8).components 2 (.node 4) (.node 2) := chain_of_two
  have taken := (references_are_followed_once one).2.2 [] o success only needed
  have further := (references_are_followed_once two).2.1 (by decide)
  exact ⟨one, ⟨o, success, names, taken.mpr rfl⟩, two, further⟩

/-- A limit for the query of which the parameter is two references away is lost. -/
theorem second_reference_is_not_followed :
    Chain pagesGraph (.node 0) 2 (.node 4) (.node 2) ∧
      Declaration.dereference pagesGraph (.node 0) "#/paths/~1pets/get/parameters/0" (.node 4) =
        .ok (.node 3) ∧
      ∃ o, (compile pagesGraph (pagesSlot 8) []).1 = .ok o ∧ o.parameters = [] := by
  have evaluated : (compile pagesGraph (pagesSlot 8) []).1.toOption.map (·.parameters) = some [] := by
    decide +kernel
  obtain ⟨o, success, none⟩ := Except.exists_of_map_toOption evaluated
  exact ⟨chain_of_two, by decide +kernel, o, success, none⟩

end Operation

end TypedClient
