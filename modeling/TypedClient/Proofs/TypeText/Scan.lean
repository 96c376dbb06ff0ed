import TypedClient.Schema

/-!
# Scanning texts of types

A text is balanced if the scan comes out of it at the depth at which it went in, outside of
literals, and was never above that depth on the way. String literals, identifiers and bracketed
balanced texts are balanced, whatever characters a literal holds. An operator counts only at the top:
a text that hides all its operators is no union and no intersection, and one in which an operator
stands behind a balanced text is one.
-/
namespace TypedClient.TypeText

open Scan (run)

def isOperator (c : Char) : Bool := c = '|' || c = '&'

/-- A character that changes nothing about where a scan of plain text stands. -/
def isOrdinary (c : Char) : Bool := c ≠ '\'' && !isOpening c && !isClosing c

/-- A text that leaves a scan where it was and never takes it further up. -/
structure Balanced (text : List Char) : Prop where
  settled : ∀ d, run ⟨.plain, d⟩ text = ⟨.plain, d⟩
  below : ∀ d, ∀ p, p <+: text → d ≤ (run ⟨.plain, d⟩ p).depth

/-- No operator of the text stands at the top of a scan that comes from `s`. -/
def Hides (s : Scan) (text : List Char) : Prop :=
  ∀ p c, p ++ [c] <+: text → isOperator c → (run s p).atTop = false

theorem run_append (s : Scan) (a b : List Char) : run s (a ++ b) = run (run s a) b :=
  List.foldl_append

theorem prefix_append_cases {a b p : List Char} (isPrefix : p <+: a ++ b) :
    p <+: a ∨ ∃ q, q <+: b ∧ p = a ++ q := by
  rcases List.prefix_or_prefix_of_prefix isPrefix (List.prefix_append a b) with inside | ⟨q, rfl⟩
  · exact .inl inside
  · exact .inr ⟨q, (List.prefix_append_right_inj a).mp isPrefix, rfl⟩

/-! ### Balanced texts -/

theorem balanced_nil : Balanced [] where
  settled _ := rfl
  below d p isPrefix := by
    rw [List.prefix_nil.mp isPrefix]
    exact Int.le_refl d

theorem Balanced.append {a b : List Char} (ha : Balanced a) (hb : Balanced b) :
    Balanced (a ++ b) where
  settled d := by rw [run_append, ha.settled, hb.settled]
  below d p isPrefix := by
    rcases prefix_append_cases isPrefix with inside | ⟨q, behind, rfl⟩
    · exact ha.below d p inside
    · rw [run_append, ha.settled]
      exact hb.below d q behind

theorem Balanced.flatMap {α : Type} {f : α → List Char} {l : List α}
    (each : ∀ x ∈ l, Balanced (f x)) : Balanced (l.flatMap f) := by
  induction l with
  | nil => exact balanced_nil
  | cons x l ih =>
    rw [List.flatMap_cons]
    exact (each x (by simp)).append (ih fun y hy => each y (by simp [hy]))

theorem step_of_isOrdinary {c : Char} (ordinary : isOrdinary c) (d : Int) :
    Scan.step ⟨.plain, d⟩ c = ⟨.plain, d⟩ := by
  simp only [isOrdinary, Bool.and_eq_true, decide_eq_true_eq, Bool.not_eq_true'] at ordinary
  simp [Scan.step, ordinary]

theorem balanced_of_isOrdinary {text : List Char} (ordinary : ∀ c ∈ text, isOrdinary c) :
    Balanced text := by
  have stays : ∀ p : List Char, p <+: text → ∀ d, run ⟨.plain, d⟩ p = ⟨.plain, d⟩ := by
    intro p isPrefix d
    have each : ∀ c ∈ p, isOrdinary c := fun c hc => ordinary c (isPrefix.subset hc)
    clear isPrefix
    induction p with
    | nil => rfl
    | cons c p ih =>
      simp only [run, List.foldl_cons, step_of_isOrdinary (each c (by simp))]
      exact ih fun e he => each e (by simp [he])
  exact ⟨stays text (List.prefix_refl _), fun d p isPrefix => by simp [stays p isPrefix d]⟩

theorem Balanced.bracket {opening closing : Char} {text : List Char}
    (hOpening : isOpening opening) (hClosing : isClosing closing) (balanced : Balanced text) :
    Balanced (opening :: text ++ [closing]) := by
  have opens : ∀ d, Scan.step ⟨.plain, d⟩ opening = ⟨.plain, d + 1⟩ := by
    intro d
    have other : opening ≠ '\'' := by
      rintro rfl
      cases hOpening
    simp [Scan.step, other, hOpening]
  have closes : ∀ d, Scan.step ⟨.plain, d + 1⟩ closing = ⟨.plain, d⟩ := by
    intro d
    have other : closing ≠ '\'' := by
      rintro rfl
      cases hClosing
    have notOpening : isOpening closing = false := by
      simp only [isClosing, Bool.or_eq_true, decide_eq_true_eq] at hClosing
      rcases hClosing with ((rfl | rfl) | rfl) | rfl <;> rfl
    simp [Scan.step, other, hClosing, notOpening]
  have settled : ∀ d, run ⟨.plain, d⟩ (opening :: text) = ⟨.plain, d + 1⟩ := by
    intro d
    rw [run, List.foldl_cons, opens]
    exact balanced.settled (d + 1)
  constructor
  · intro d
    rw [run_append, settled]
    exact closes d
  · intro d p isPrefix
    rcases prefix_append_cases isPrefix with inside | ⟨q, behind, rfl⟩
    · cases p with
      | nil => exact Int.le_refl d
      | cons c p =>
        obtain ⟨rfl, deep⟩ := List.cons_prefix_cons.mp inside
        rw [run, List.foldl_cons, opens]
        have deeper := balanced.below (d + 1) p deep
        simp only [run] at deeper
        omega
    · rw [run_append, settled]
      rcases List.prefix_cons_iff.mp behind with rfl | ⟨r, rfl, nothing⟩
      · simp only [run, List.foldl_nil]
        omega
      · rw [List.prefix_nil.mp nothing, run, List.foldl_cons, closes]
        exact Int.le_refl d

/-! ### Literals -/

/-- Within a literal at depth `d`. -/
def Within (d : Int) (s : Scan) : Prop := s.mode ≠ .plain ∧ s.depth = d

theorem run_escapeChar (c : Char) (d : Int) :
    run ⟨.quoted, d⟩ (escapeChar c) = ⟨.quoted, d⟩ := by
  unfold escapeChar
  split
  · simp [run, Scan.step]
  · next harmless =>
    simp only [Bool.or_eq_true, decide_eq_true_eq, not_or] at harmless
    simp [run, Scan.step, harmless.1, harmless.2]

theorem run_flatMap_escapeChar (text : List Char) (d : Int) :
    run ⟨.quoted, d⟩ (text.flatMap escapeChar) = ⟨.quoted, d⟩ := by
  induction text with
  | nil => rfl
  | cons c text ih => rw [List.flatMap_cons, run_append, run_escapeChar, ih]

/-- No character of a literal ends it, whatever the text is. -/
theorem within_literal {text p : List Char} (isPrefix : p <+: text.flatMap escapeChar)
    (d : Int) : Within d (run ⟨.quoted, d⟩ p) := by
  induction text generalizing p with
  | nil =>
    rw [List.prefix_nil.mp isPrefix]
    exact ⟨nofun, rfl⟩
  | cons c text ih =>
    rw [List.flatMap_cons] at isPrefix
    rcases prefix_append_cases isPrefix with inside | ⟨q, behind, rfl⟩
    · unfold escapeChar at inside
      split at inside
      · rcases List.prefix_cons_iff.mp inside with rfl | ⟨r, rfl, inner⟩
        · exact ⟨nofun, rfl⟩
        · rcases List.prefix_cons_iff.mp inner with rfl | ⟨r, rfl, nothing⟩
          · exact ⟨nofun, rfl⟩
          · rw [List.prefix_nil.mp nothing]
            exact ⟨nofun, rfl⟩
      · next harmless =>
        simp only [Bool.or_eq_true, decide_eq_true_eq, not_or] at harmless
        rcases List.prefix_cons_iff.mp inside with rfl | ⟨r, rfl, nothing⟩
        · exact ⟨nofun, rfl⟩
        · rw [List.prefix_nil.mp nothing]
          simp [Within, run, Scan.step, harmless.1, harmless.2]
    · rw [run_append, run_escapeChar]
      exact ih behind

theorem toList_literal (s : String) :
    (literal s).toList = '\'' :: (s.toList.flatMap escapeChar ++ ['\'']) := by
  rw [literal, String.toList_ofList, List.cons_append]

theorem step_quote (d : Int) : Scan.step ⟨.plain, d⟩ '\'' = ⟨.quoted, d⟩ := rfl

/-- The literal of any text is balanced. -/
theorem balanced_literal (s : String) : Balanced (literal s).toList := by
  rw [toList_literal]
  constructor
  · intro d
    rw [run, List.foldl_cons, step_quote, ← run, run_append, run_flatMap_escapeChar]
    rfl
  · intro d p isPrefix
    rcases List.prefix_cons_iff.mp isPrefix with rfl | ⟨r, rfl, body⟩
    · exact Int.le_refl d
    · rw [run, List.foldl_cons, step_quote, ← run]
      rcases prefix_append_cases body with inside | ⟨q, behind, rfl⟩
      · exact Int.le_of_eq (within_literal inside d).2.symm
      · rw [run_append, run_flatMap_escapeChar]
        rcases List.prefix_cons_iff.mp behind with rfl | ⟨r, rfl, nothing⟩
        · exact Int.le_refl d
        · rw [List.prefix_nil.mp nothing]
          exact Int.le_refl d

/-! ### Hidden operators -/

theorem hides_nil (s : Scan) : Hides s [] := by
  intro p c isPrefix
  exact absurd (List.prefix_nil.mp isPrefix) (by simp)

theorem hides_cons {s : Scan} {c : Char} {text : List Char} :
    Hides s (c :: text) ↔ (isOperator c → s.atTop = false) ∧ Hides (s.step c) text := by
  constructor
  · intro hides
    refine ⟨hides [] c (by simp), fun p e isPrefix => ?_⟩
    exact hides (c :: p) e (List.cons_prefix_cons.mpr ⟨rfl, isPrefix⟩)
  · rintro ⟨here, there⟩ p e isPrefix operator
    cases p with
    | nil =>
      obtain ⟨rfl, -⟩ := List.cons_prefix_cons.mp isPrefix
      exact here operator
    | cons d p =>
      obtain ⟨rfl, behind⟩ := List.cons_prefix_cons.mp isPrefix
      exact there p e behind operator

theorem hides_append {s : Scan} {a b : List Char} (here : Hides s a) (there : Hides (run s a) b) :
    Hides s (a ++ b) := by
  induction a generalizing s with
  | nil => exact there
  | cons c a ih =>
    rw [hides_cons] at here
    exact hides_cons.mpr ⟨here.1, ih here.2 there⟩

theorem hides_of_no_operator {text : List Char} (none : ∀ c ∈ text, isOperator c = false)
    (s : Scan) : Hides s text := by
  intro p c isPrefix operator
  rw [none c (isPrefix.subset (by simp))] at operator
  cases operator

theorem hides_of_not_atTop {s : Scan} {text : List Char}
    (never : ∀ p, p <+: text → (run s p).atTop = false) : Hides s text :=
  fun p c isPrefix _ => never p ((List.prefix_append p [c]).trans isPrefix)

theorem hides_bracket {opening closing : Char} {text : List Char} (hOpening : isOpening opening)
    (hClosing : isOperator closing = false) (balanced : Balanced text) :
    Hides {} (opening :: text ++ [closing]) := by
  have other : opening ≠ '\'' := by
    rintro rfl
    cases hOpening
  have opens : Scan.step {} opening = ⟨.plain, 1⟩ := by simp [Scan.step, other, hOpening]
  have plain : isOperator opening = false := by
    simp only [isOpening, Bool.or_eq_true, decide_eq_true_eq] at hOpening
    rcases hOpening with ((rfl | rfl) | rfl) | rfl <;> rfl
  refine hides_cons.mpr ⟨fun operator => by simp [plain] at operator, ?_⟩
  rw [opens]
  refine hides_append (hides_of_not_atTop fun p isPrefix => ?_) (hides_of_no_operator ?_ _)
  · have deep := balanced.below 1 p isPrefix
    simp only [Scan.atTop, Bool.and_eq_false_iff, decide_eq_false_iff_not]
    right
    omega
  · simpa using hClosing

theorem hides_literal (s : String) : Hides {} (literal s).toList := by
  rw [toList_literal]
  refine hides_cons.mpr ⟨nofun, ?_⟩
  rw [step_quote]
  refine hides_append (hides_of_not_atTop fun p isPrefix => ?_) (hides_of_no_operator ?_ _)
  · have within := within_literal isPrefix 0
    simp [Scan.atTop, within.1]
  · simp [isOperator]

/-! ### Operators at the top -/

theorem hasOperator_of_hides {s : Scan} {text : List Char} (hides : Hides s text)
    (before : Option Char) : hasOperator s before text = false := by
  induction text generalizing s before with
  | nil => rfl
  | cons c text ih =>
    rw [hides_cons] at hides
    rw [hasOperator, if_neg]
    · exact ih hides.2 _
    · intro top
      simp only [Bool.and_eq_true, Bool.or_eq_true, decide_eq_true_eq] at top
      rw [hides.1 (by simpa [isOperator] using top.1.1.2)] at top
      exact absurd top.1.1.1 (by simp)

/-- An operator between blanks is found if the text before it leaves the scan at the top. -/
theorem hasOperator_append {s : Scan} {text : List Char} {operator : Char}
    (isOp : isOperator operator) (top : run s text = {}) (rest : List Char)
    (before : Option Char) :
    hasOperator s before (text ++ ' ' :: operator :: ' ' :: rest) = true := by
  induction text generalizing s before with
  | nil =>
    cases top
    have found : operator = '|' ∨ operator = '&' := by simpa [isOperator] using isOp
    simp [hasOperator, Scan.step, Scan.atTop, isOpening, isClosing, found]
  | cons c text ih =>
    rw [List.cons_append, hasOperator]
    split
    · rfl
    · exact ih top _

/-- Texts joined by an operator are a union or an intersection. -/
theorem isCompound_append (operator : Char) (isOp : isOperator operator) {text separator : String}
    (spaced : separator.toList = [' ', operator, ' ']) (balanced : Balanced text.toList)
    (rest : String) : isCompound (text ++ separator ++ rest) = true := by
  rw [isCompound, String.toList_append, String.toList_append, spaced, List.append_assoc]
  exact hasOperator_append isOp (balanced.settled 0) _ _

theorem isCompound_of_hides {text : String} (hides : Hides {} text.toList) :
    isCompound text = false := hasOperator_of_hides hides none

end TypedClient.TypeText
