import TypedClient.Proofs.Text.Lists
import TypedClient.Proofs.TypeText.Scan

/-!
# Texts in pieces

A text of types is cut at a separator wherever the separator stands outside of literals. What a literal
says is never cut, whatever quotes, escapes and separators it imitates. So a text that is put together
from pieces with the separator between them is cut into these pieces again, if the separator begins with
a character that no piece has outside of its literals. A literal is read by undoing its escapes.
-/
namespace TypedClient.TypeText

/-- Where a scan stands behind one more character. -/
def Mode.next (m : Mode) (c : Char) : Mode := (Scan.step ⟨m, 0⟩ c).mode

/-- A text to cut at, which does not begin with a quote. -/
structure Separator where
  first : Char
  others : List Char
  unquoted : first ≠ '\''

namespace Separator

def text (s : Separator) : List Char := s.first :: s.others

/-- What stands behind the separator, if the text begins with it outside of literals. -/
def behind? (s : Separator) (m : Mode) (text : List Char) : Option (List Char) :=
  if m = .plain then Text.dropStart? s.text text else none

variable {s : Separator} {m : Mode}

theorem behind?_eq_some_iff {text rest : List Char} :
    s.behind? m text = some rest ↔ m = .plain ∧ text = s.text ++ rest := by
  unfold behind?
  split
  · next plain => rw [Text.dropStart?_eq_some_iff, and_iff_right plain]
  · next inside => exact iff_of_false nofun fun here => inside here.1

theorem length_behind? {text rest : List Char} (found : s.behind? m text = some rest) :
    rest.length < text.length := by
  obtain ⟨-, rfl⟩ := behind?_eq_some_iff.mp found
  simp only [Separator.text, List.cons_append, List.length_cons, List.length_append]
  omega

theorem behind?_eq_none {c : Char} {rest : List Char} (other : m ≠ .plain ∨ c ≠ s.first) :
    s.behind? m (c :: rest) = none := by
  rw [Option.eq_none_iff_forall_ne_some]
  intro rest' found
  obtain ⟨plain, same⟩ := behind?_eq_some_iff.mp found
  exact other.elim (· plain) (· (List.cons.inj same).1)

end Separator

/-- Pieces with a text in front of the first one. -/
def prepend (start : List Char) (pieces : List (List Char)) : List (List Char) :=
  pieces.modifyHead (start ++ ·)

/-- The pieces of a text between the separators that stand outside of literals, from where a scan
stands. -/
def cut (s : Separator) (m : Mode) : List Char → List (List Char)
  | [] => [[]]
  | c :: rest =>
    match _ : s.behind? m (c :: rest) with
    | some behind => [] :: cut s .plain behind
    | none => prepend [c] (cut s (m.next c) rest)
termination_by text => text.length
decreasing_by
  · exact Separator.length_behind? ‹_›
  · exact Nat.lt_succ_self _

section Prepend

variable (a b : List Char) (pieces : List (List Char))

theorem prepend_nil : prepend [] pieces = pieces := by cases pieces <;> rfl

theorem prepend_cons (piece : List Char) : prepend a (piece :: pieces) = (a ++ piece) :: pieces := rfl

theorem prepend_prepend : prepend a (prepend b pieces) = prepend (a ++ b) pieces := by
  cases pieces <;> simp [prepend]

end Prepend

section Cut

variable (s : Separator) (m : Mode) (rest : List Char)

theorem cut_nil : cut s m [] = [[]] := by rw [cut]

theorem cut_cons {c : Char} (other : m ≠ .plain ∨ c ≠ s.first) :
    cut s m (c :: rest) = prepend [c] (cut s (m.next c) rest) := by
  rw [cut]
  split
  · next behind found =>
    rw [Separator.behind?_eq_none other] at found
    cases found
  · rfl

theorem cut_quoted (c : Char) :
    cut s .quoted (c :: rest) = prepend [c] (cut s (Mode.next .quoted c) rest) :=
  cut_cons s .quoted rest (.inl nofun)

theorem cut_escaped (c : Char) : cut s .escaped (c :: rest) = prepend [c] (cut s .quoted rest) :=
  cut_cons s .escaped rest (.inl nofun)

theorem cut_separator : cut s .plain (s.text ++ rest) = [] :: cut s .plain rest := by
  have found : s.behind? .plain (s.text ++ rest) = some rest :=
    Separator.behind?_eq_some_iff.mpr ⟨rfl, rfl⟩
  rw [Separator.text, List.cons_append] at found ⊢
  rw [cut]
  split
  · next behind found' =>
    cases found.symm.trans found'
    rfl
  · next none => cases found.symm.trans none

/-! ### Literals -/

theorem cut_escapeChar (c : Char) :
    cut s .quoted (escapeChar c ++ rest) = prepend (escapeChar c) (cut s .quoted rest) := by
  unfold escapeChar
  split
  · have escapes : Mode.next .quoted '\\' = .escaped := rfl
    rw [List.cons_append, List.singleton_append, cut_quoted, escapes, cut_escaped, prepend_prepend]
    rfl
  · next harmless =>
    simp only [Bool.or_eq_true, decide_eq_true_eq, not_or] at harmless
    have goesOn : Mode.next .quoted c = .quoted := by
      simp [Mode.next, Scan.step, harmless.1, harmless.2]
    rw [List.singleton_append, cut_quoted, goesOn]

/-- What a literal says is not cut, whatever it says. -/
theorem cut_flatMap_escapeChar (text : List Char) :
    cut s .quoted (text.flatMap escapeChar ++ rest) =
      prepend (text.flatMap escapeChar) (cut s .quoted rest) := by
  induction text with
  | nil => exact (prepend_nil _).symm
  | cons c text ih => rw [List.flatMap_cons, List.append_assoc, cut_escapeChar, ih, prepend_prepend]

theorem cut_literal (t : String) :
    cut s .plain ((literal t).toList ++ rest) = prepend (literal t).toList (cut s .plain rest) := by
  have opens : Mode.next .plain '\'' = .quoted := rfl
  have closes : Mode.next .quoted '\'' = .plain := rfl
  rw [toList_literal, List.cons_append, List.append_assoc, cut_cons s _ _ (.inr s.unquoted.symm), opens,
    cut_flatMap_escapeChar, List.singleton_append, cut_quoted, closes, prepend_prepend, prepend_prepend]
  rfl

end Cut

/-! ### Texts put together -/

/-- A text that has a character in its literals only. -/
inductive Sealed (c : Char) : List Char → Prop
  | nil : Sealed c []
  | char {d : Char} {rest : List Char} (other : d ≠ c) (unquoted : d ≠ '\'') (behind : Sealed c rest) :
    Sealed c (d :: rest)
  | literal (t : String) {rest : List Char} (behind : Sealed c rest) :
    Sealed c ((TypeText.literal t).toList ++ rest)

namespace Sealed

variable {c : Char} {a b : List Char}

theorem append (first : Sealed c a) (second : Sealed c b) : Sealed c (a ++ b) := by
  induction first with
  | nil => exact second
  | char other unquoted _ ih => exact ih.char other unquoted
  | literal t _ ih =>
    rw [List.append_assoc]
    exact ih.literal t

theorem of_literal (t : String) : Sealed c (TypeText.literal t).toList := by
  rw [← List.append_nil (TypeText.literal t).toList]
  exact nil.literal t

theorem of_notMem (other : c ∉ a) (unquoted : '\'' ∉ a) : Sealed c a := by
  induction a with
  | nil => exact nil
  | cons d a ih =>
    obtain ⟨here, other⟩ := not_or.mp (mt List.mem_cons.mpr other)
    obtain ⟨here', unquoted⟩ := not_or.mp (mt List.mem_cons.mpr unquoted)
    exact (ih other unquoted).char (Ne.symm here) (Ne.symm here')

theorem flatMap {α : Type} {f : α → List Char} {l : List α} (each : ∀ x ∈ l, Sealed c (f x)) :
    Sealed c (l.flatMap f) := by
  induction l with
  | nil => exact nil
  | cons x l ih =>
    obtain ⟨here, each⟩ := List.forall_mem_cons.mp each
    rw [List.flatMap_cons]
    exact here.append (ih each)

theorem joinWith {separator : String} {ts : List String} (between : Sealed c separator.toList)
    (each : ∀ t ∈ ts, Sealed c t.toList) : Sealed c (Text.joinWith separator ts).toList := by
  cases ts with
  | nil => exact nil
  | cons t ts =>
    obtain ⟨here, each⟩ := List.forall_mem_cons.mp each
    rw [Text.toList_joinWith_cons]
    exact here.append (flatMap fun u member => between.append (each u member))

end Sealed

section Pieces

variable {s : Separator} {piece : List Char} (rest : List Char)

theorem cut_sealed (whole : Sealed s.first piece) :
    cut s .plain (piece ++ rest) = prepend piece (cut s .plain rest) := by
  induction whole with
  | nil => exact (prepend_nil _).symm
  | @char d a other unquoted _ ih =>
    have goesOn : Mode.next .plain d = .plain := by
      simp only [Mode.next, Scan.step, unquoted, if_false]
      split_ifs <;> rfl
    rw [List.cons_append, cut_cons s _ _ (.inr other), goesOn, ih, prepend_prepend]
    rfl
  | literal t _ ih => rw [List.append_assoc, cut_literal, ih, prepend_prepend]

/-- A piece is cut off at the separator behind it. -/
theorem cut_piece (whole : Sealed s.first piece) :
    cut s .plain (piece ++ s.text ++ rest) = piece :: cut s .plain rest := by
  rw [List.append_assoc, cut_sealed _ whole, cut_separator, prepend_cons, List.append_nil]

theorem cut_single (whole : Sealed s.first piece) : cut s .plain piece = [piece] := by
  have pieces := cut_sealed [] whole
  rwa [cut_nil, prepend_cons, List.append_nil] at pieces

/-- Pieces with the separator behind each of them are cut apart. -/
theorem cut_flatMap {α : Type} {f : α → List Char} {l : List α}
    (each : ∀ x ∈ l, Sealed s.first (f x)) :
    cut s .plain (l.flatMap (fun x => f x ++ s.text) ++ rest) = l.map f ++ cut s .plain rest := by
  induction l with
  | nil => rfl
  | cons x l ih =>
    obtain ⟨here, each⟩ := List.forall_mem_cons.mp each
    rw [List.flatMap_cons, List.append_assoc, cut_piece _ here, ih each]
    rfl

/-- Texts that are joined by the separator are cut apart. -/
theorem cut_joinWith {separator : String} (same : separator.toList = s.text) {ts : List String}
    (some : ts ≠ []) (each : ∀ t ∈ ts, Sealed s.first t.toList) :
    cut s .plain (Text.joinWith separator ts).toList = ts.map String.toList := by
  induction ts with
  | nil => exact absurd rfl some
  | cons t ts ih =>
    obtain ⟨here, each⟩ := List.forall_mem_cons.mp each
    cases ts with
    | nil => exact cut_single here
    | cons u ts =>
      rw [Text.joinWith, String.toList_append, String.toList_append, same, cut_piece _ here,
        ih (List.cons_ne_nil _ _) each]
      rfl

end Pieces

/-! ### Reading literals -/

/-- A text with its escapes undone. -/
def unescape : List Char → List Char
  | '\\' :: c :: rest => c :: unescape rest
  | c :: rest => c :: unescape rest
  | [] => []

theorem unescape_flatMap_escapeChar (text : List Char) :
    unescape (text.flatMap escapeChar) = text := by
  induction text with
  | nil => rfl
  | cons c text ih =>
    rw [List.flatMap_cons, escapeChar]
    split
    · rw [List.cons_append, List.singleton_append, unescape, ih]
    · next harmless =>
      simp only [Bool.or_eq_true, decide_eq_true_eq, not_or] at harmless
      rw [List.singleton_append, unescape, ih]
      intro d rest same
      exact absurd same harmless.1

/-- What a literal says. -/
def ofLiteral? : List Char → Option String
  | '\'' :: rest =>
    if rest.getLast? = some '\'' then some (String.ofList (unescape rest.dropLast)) else none
  | _ => none

theorem ofLiteral?_literal (t : String) : ofLiteral? (literal t).toList = some t := by
  rw [toList_literal]
  simp [ofLiteral?, unescape_flatMap_escapeChar]

end TypedClient.TypeText
