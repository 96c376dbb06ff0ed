import Mathlib.Data.List.Pairwise
import TypedClient.Proofs.Failure.Success
import TypedClient.Parameter

/-!
# The order of parameters

Parameters come in the order of three kinds: those that must be given, those that may be left out and
those with a default value; within a kind they keep their order. A signature shows each of them as a
fragment. The fragment of the interface has a mark exactly if that of the implementation has a mark
or a default value, and behind a fragment that has one no other goes without.
-/
namespace TypedClient

/-- How a fragment of a signature marks its parameter. -/
inductive Mark where
  | required
  | optional
  /-- The parameter has a default value, which is written like this. -/
  | default (literal : String)
  deriving DecidableEq, Repr

/-- A parameter as a signature shows it. -/
structure Fragment where
  name : String
  type : String
  mark : Mark
  deriving DecidableEq, Repr

def Fragment.text (f : Fragment) : String :=
  match f.mark with
  | .required => f.name ++ ": " ++ f.type
  | .optional => f.name ++ "?: " ++ f.type
  | .default literal => f.name ++ ": " ++ f.type ++ " = " ++ literal

namespace Parameter

/-- The parameter must be given. -/
def isRequired (p : Parameter) : Bool := p.required && !p.hasDefault

/-- The parameter may be left out, and then it has no value. -/
def isOptional (p : Parameter) : Bool := !p.required && !p.hasDefault

/-! ### Sorting -/

theorem rank_eq_zero_iff {p : Parameter} : p.rank = 0 ↔ p.isRequired = true := by
  unfold rank isRequired
  cases p.hasDefault <;> cases p.required <;> decide

theorem rank_eq_one_iff {p : Parameter} : p.rank = 1 ↔ p.isOptional = true := by
  unfold rank isOptional
  cases p.hasDefault <;> cases p.required <;> decide

theorem rank_eq_two_iff {p : Parameter} : p.rank = 2 ↔ p.hasDefault = true := by
  unfold rank
  cases p.hasDefault <;> cases p.required <;> decide

theorem sort_eq (ps : List Parameter) :
    sort ps = ps.filter isRequired ++ ps.filter isOptional ++ ps.filter hasDefault := by
  simp only [sort, List.flatMap_cons, List.flatMap_nil, List.append_nil, rank_eq_zero_iff,
    rank_eq_one_iff, rank_eq_two_iff, Bool.decide_eq_true, List.append_assoc]

theorem sort_perm (ps : List Parameter) : (sort ps).Perm ps := by
  have optional : (ps.filter fun p => !p.isRequired).filter (fun p => !p.hasDefault) =
      ps.filter isOptional := by
    rw [List.filter_filter]
    refine List.filter_congr fun p _ => ?_
    unfold isRequired isOptional
    cases p.required <;> cases p.hasDefault <;> rfl
  have defaulted : (ps.filter fun p => !p.isRequired).filter hasDefault = ps.filter hasDefault := by
    rw [List.filter_filter]
    refine List.filter_congr fun p _ => ?_
    unfold isRequired
    cases p.required <;> cases p.hasDefault <;> rfl
  have rest : (ps.filter isOptional ++ ps.filter hasDefault).Perm
      (ps.filter fun p => !p.isRequired) := by
    rw [← optional, ← defaulted]
    exact List.perm_append_comm.trans (List.filter_append_perm hasDefault _)
  rw [sort_eq, List.append_assoc]
  exact (rest.append_left _).trans (List.filter_append_perm isRequired ps)

theorem pairwise_rank_sort (ps : List Parameter) :
    (sort ps).Pairwise fun p q => p.rank ≤ q.rank := by
  have ranked : ∀ {r : Nat} {p : Parameter}, p ∈ (ps.filter fun p => p.rank = r) → p.rank = r :=
    fun member => of_decide_eq_true (List.mem_filter.mp member).2
  refine List.pairwise_flatMap.mpr ⟨fun r _ => ?_, ?_⟩
  · refine List.pairwise_of_forall_mem_list fun p mp q mq => ?_
    exact Nat.le_of_eq ((ranked mp).trans (ranked mq).symm)
  · have ascending : [0, 1, 2].Pairwise (· < ·) := by decide
    refine ascending.imp fun less p mp q mq => ?_
    rw [ranked mp, ranked mq]
    exact Nat.le_of_lt less

/-- No parameter that must be given stands behind one that may be left out. -/
theorem pairwise_isRequired_sort (ps : List Parameter) :
    (sort ps).Pairwise fun p q => q.isRequired = true → p.isRequired = true := by
  refine (pairwise_rank_sort ps).imp fun {p q} less required => ?_
  rw [← rank_eq_zero_iff] at required ⊢
  omega

/-! ### Fragments -/

/-- A parameter as the interface shows it. -/
def shown (p : Parameter) : Fragment :=
  ⟨p.name, p.type.text, if p.isRequired then .required else .optional⟩

/-- A parameter as the implementation shows it. -/
def taken (g : Graph) (p : Parameter) : Fragment :=
  ⟨p.name, p.type.text,
    match p.default with
    | some v => .default ((g.literal v).toOption.getD "")
    | none => if p.required then .required else .optional⟩

theorem definition_eq_text (p : Parameter) : p.definition = p.shown.text := by
  unfold definition shown Fragment.text isRequired
  cases p.required <;> cases p.hasDefault <;> simp [String.append_assoc]

theorem mark_taken_of_default {g : Graph} {p : Parameter} {v : Value} (default : p.default = some v)
    {s : String} (literal : g.literal v = .ok s) : (p.taken g).mark = .default s := by
  simp only [taken, default, literal]
  rfl

theorem text_taken {g : Graph} {p : Parameter} {s : String} (success : p.implementation g = .ok s) :
    s = (p.taken g).text := by
  unfold implementation at success
  cases default : p.default with
  | none =>
    rw [default] at success
    cases success
    unfold taken Fragment.text
    cases p.required <;> simp [default, String.append_assoc]
  | some v =>
    rw [default] at success
    cases literal : g.literal v with
    | ok s' =>
      simp only [literal] at success
      cases success
      unfold Fragment.text
      rw [mark_taken_of_default default literal]
      rfl
    | error e =>
      simp only [literal] at success
      cases e <;> cases success

theorem mark_shown_iff {p : Parameter} : p.shown.mark = .optional ↔ p.isRequired = false := by
  unfold shown
  cases p.isRequired <;> simp

theorem mark_shown_cases (p : Parameter) : p.shown.mark = .required ∨ p.shown.mark = .optional := by
  unfold shown
  cases p.isRequired
  · exact .inr rfl
  · exact .inl rfl

theorem mark_taken_iff {g : Graph} {p : Parameter} :
    (p.taken g).mark = .required ↔ p.isRequired = true := by
  unfold taken isRequired hasDefault
  cases p.default <;> cases p.required <;> simp

/-- The two fragments of a parameter agree on whether it can be left out. -/
theorem mark_shown_iff_taken (g : Graph) (p : Parameter) : p.shown.mark = .optional ↔
    (p.taken g).mark = .optional ∨ ∃ literal, (p.taken g).mark = .default literal := by
  have kinds : (p.taken g).mark ≠ .required ↔
      (p.taken g).mark = .optional ∨ ∃ literal, (p.taken g).mark = .default literal := by
    cases (p.taken g).mark <;> simp
  rw [← kinds, ne_eq, mark_taken_iff, mark_shown_iff, Bool.not_eq_true]

end Parameter

end TypedClient
