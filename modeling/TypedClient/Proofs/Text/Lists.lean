import Mathlib.Data.List.Forall2
import TypedClient.Text.Basic

/-!
# Lists of texts

Laws of texts joined by a separator, of texts cut into pieces and of lists without repeats. A text is
cut where a separator stands, and what has no separator goes to the piece behind it. Removing repeats
from parts of a list first changes nothing, as long as the parts are removed from in the same order.
Lists of which the one has the shorter texts are equal if they are joined to the same text.
-/
namespace TypedClient.Text

section Pieces

variable {p : Char → Bool}

/-- A text is cut where a separator stands. -/
theorem piecesBy_append {c : Char} (separates : p c = true) (text text' : List Char) :
    piecesBy p (text ++ c :: text') = piecesBy p text ++ piecesBy p text' := by
  induction text with
  | nil =>
    obtain ⟨first, rest, cut⟩ := List.exists_cons_of_ne_nil (piecesBy_ne_nil p text')
    simp [piecesBy, cut, separates]
  | cons d text ih =>
    obtain ⟨first, rest, cut⟩ := List.exists_cons_of_ne_nil (piecesBy_ne_nil p text)
    rw [cut, List.cons_append] at ih
    simp only [List.cons_append, piecesBy, ih, cut]
    split <;> rfl

/-- What has no separator stands in front of the first piece of what follows. -/
theorem piecesBy_append_of_plain {start : List Char} (plain : ∀ c ∈ start, p c = false)
    (text : List Char) :
    piecesBy p (start ++ text) = (piecesBy p text).modifyHead (start ++ ·) := by
  obtain ⟨first, rest, cut⟩ := List.exists_cons_of_ne_nil (piecesBy_ne_nil p text)
  rw [cut, List.modifyHead_cons]
  induction start with
  | nil => exact cut
  | cons c start ih =>
    rw [List.forall_mem_cons] at plain
    simp [piecesBy, ih plain.2, plain.1]

theorem not_of_mem_piecesBy {text piece : List Char}
    (member : piece ∈ piecesBy p text) : ∀ c ∈ piece, p c = false := by
  induction text generalizing piece with
  | nil => simp_all [piecesBy]
  | cons d rest ih =>
    simp only [piecesBy] at member
    split at member
    · next none => exact absurd none (piecesBy_ne_nil p rest)
    · next first pieces some =>
      rw [some] at ih
      split at member
      · simp only [List.mem_cons] at member
        rcases member with rfl | rfl | member
        · simp
        · exact ih (by simp)
        · exact ih (by simp [member])
      · next plain =>
        simp only [List.mem_cons] at member
        rcases member with rfl | member
        · intro c hc
          rcases List.mem_cons.mp hc with rfl | hc
          · simpa using plain
          · exact ih (by simp) c hc
        · exact ih (by simp [member])

/-- What does not separate pieces is in one of them. -/
theorem exists_mem_piecesBy {text : List Char} {c : Char} (member : c ∈ text)
    (inside : p c = false) : ∃ piece ∈ piecesBy p text, c ∈ piece := by
  induction text with
  | nil => cases member
  | cons d rest ih =>
    cases cut : piecesBy p rest with
    | nil => exact absurd cut (piecesBy_ne_nil p rest)
    | cons first pieces =>
      simp only [piecesBy, cut]
      rw [cut] at ih
      cases separates : p d with
      | true =>
        have later : c ∈ rest := (List.mem_cons.mp member).resolve_left fun same => by
          rw [same, separates] at inside
          cases inside
        obtain ⟨piece, among, here⟩ := ih later
        exact ⟨piece, List.mem_cons_of_mem _ among, here⟩
      | false =>
        rcases List.mem_cons.mp member with rfl | later
        · exact ⟨c :: first, List.mem_cons_self, List.mem_cons_self⟩
        · obtain ⟨piece, among, here⟩ := ih later
          rcases List.mem_cons.mp among with rfl | among
          · exact ⟨d :: piece, List.mem_cons_self, List.mem_cons_of_mem _ here⟩
          · exact ⟨piece, List.mem_cons_of_mem _ among, here⟩

end Pieces

/-- A joined text is its first part, then each other part behind a separator. -/
theorem toList_joinWith_cons (separator first : String) (rest : List String) :
    (joinWith separator (first :: rest)).toList =
      first.toList ++ rest.flatMap fun s => separator.toList ++ s.toList := by
  induction rest generalizing first with
  | nil => simp [joinWith]
  | cons s rest ih => simp [joinWith, ih]

theorem joinWith_concat {separator : String} {texts : List String} (some : texts ≠ []) (t : String) :
    joinWith separator (texts ++ [t]) = joinWith separator texts ++ (separator ++ t) := by
  cases texts with
  | nil => exact absurd rfl some
  | cons first rest =>
    apply String.toList_inj.mp
    rw [List.cons_append, toList_joinWith_cons, String.toList_append, toList_joinWith_cons]
    simp

/-- Each part of a joined text stands in it. -/
theorem infix_joinWith {separator t : String} {texts : List String} (member : t ∈ texts) :
    t.toList <:+: (joinWith separator texts).toList := by
  cases texts with
  | nil => cases member
  | cons first rest =>
    rw [toList_joinWith_cons]
    rcases List.mem_cons.mp member with rfl | behind
    · exact (List.prefix_append _ _).isInfix
    · refine List.IsInfix.trans ?_ (List.suffix_append _ _).isInfix
      obtain ⟨before, after, rfl⟩ := List.append_of_mem behind
      refine ⟨before.flatMap (fun s => separator.toList ++ s.toList) ++ separator.toList,
        after.flatMap (fun s => separator.toList ++ s.toList), ?_⟩
      simp

/-- From a text without a line feed none is dropped. -/
theorem dropFinalBreak_eq_self {text : List Char} (absent : '\n' ∉ text) :
    dropFinalBreak text = text :=
  if_neg fun final => absent (List.mem_of_getLast? final)

theorem distinct_append (a b : List String) :
    distinct (a ++ b) = distinct a ++ (distinct b).filter fun n => n ∉ a := by
  induction a with
  | nil => exact (List.filter_eq_self.mpr (by simp)).symm
  | cons n rest ih =>
    simp only [List.cons_append, distinct, ih, List.filter_append, List.filter_filter]
    congr 2
    apply List.filter_congr
    intro x _
    simp [not_or]

theorem distinct_eq_self {names : List String} (nodup : names.Nodup) : distinct names = names := by
  induction names with
  | nil => rfl
  | cons n rest ih =>
    obtain ⟨new, nodup⟩ := List.nodup_cons.mp nodup
    rw [distinct, ih nodup, List.filter_eq_self.mpr]
    intro x member
    simp only [ne_eq, decide_eq_true_eq]
    rintro rfl
    exact new member

@[simp] theorem distinct_distinct (names : List String) :
    distinct (distinct names) = distinct names :=
  distinct_eq_self (nodup_distinct names)

/-- Repeats may be removed from each part before they are removed from the whole. -/
theorem distinct_flatMap_distinct {α : Type} (f : α → List String) (l : List α) :
    distinct (l.flatMap fun x => distinct (f x)) = distinct (l.flatMap f) := by
  induction l with
  | nil => rfl
  | cons x l ih => simp [distinct_append, ih]

/-- Texts that are joined are shorter if one of them is shorter and no other longer. -/
theorem length_joinWith_le {separator : String} {l l' : List String}
    (shorter : List.Forall₂ (fun s t => s = t ∨ s.length < t.length) l l') :
    (joinWith separator l).length ≤ (joinWith separator l').length ∧
      ((joinWith separator l).length = (joinWith separator l').length → l = l') := by
  induction shorter with
  | nil => exact ⟨Nat.le_refl _, fun _ => rfl⟩
  | @cons s t rest rest' here shorter ih =>
    have first : s.length ≤ t.length ∧ (s.length = t.length → s = t) := by
      rcases here with rfl | less
      · exact ⟨Nat.le_refl _, fun _ => rfl⟩
      · exact ⟨Nat.le_of_lt less, fun same => absurd same (Nat.ne_of_lt less)⟩
    cases shorter with
    | nil => exact ⟨first.1, fun same => congrArg (· :: []) (first.2 same)⟩
    | cons _ _ =>
      simp only [joinWith, String.length_append]
      refine ⟨by omega, fun same => ?_⟩
      rw [first.2 (by omega), ih.2 (by omega)]

theorem eq_of_joinWith {separator : String} {l l' : List String}
    (shorter : List.Forall₂ (fun s t => s = t ∨ s.length < t.length) l l')
    (same : joinWith separator l = joinWith separator l') : l = l' :=
  (length_joinWith_le shorter).2 (congrArg String.length same)

end TypedClient.Text
