import TypedClient.Proofs.Text.Lists
import TypedClient.Reference

/-!
# Letters of names

A name in pascal case is made of ASCII letters and digits only, and so is the name of the type that
a reference is written as. It keeps something of every text that has a letter or digit in it, so such
a placeholder of a route has an identifier. A run of capitals is marked as a whole; whether a mark stands
between two of them shows in the two and the letter behind them.
-/
namespace TypedClient

namespace Naming

theorem lt_of_isAlphanum {c : Char} (letter : c.isAlphanum) : c.toNat < 128 := by
  delta Char.isAlphanum Char.isAlpha Char.isUpper Char.isLower Char.isDigit at letter
  simp [UInt32.le_iff_toNat_le] at letter
  omega

/-- What holds of the ASCII letters and digits, one by one, holds of every letter and digit. -/
theorem of_isAlphanum (p : Char → Prop)
    (ascii : ∀ k < 128, (Char.ofNat k).isAlphanum → p (Char.ofNat k)) {c : Char}
    (letter : c.isAlphanum) : p c := by
  have here := ascii c.toNat (lt_of_isAlphanum letter)
  rw [Char.ofNat_toNat] at here
  exact here letter

theorem isAlphanum_toLower {c : Char} (letter : c.isAlphanum) : c.toLower.isAlphanum :=
  of_isAlphanum (fun c => c.toLower.isAlphanum) (by decide) letter

theorem isAlphanum_toUpper {c : Char} (letter : c.isAlphanum) : c.toUpper.isAlphanum :=
  of_isAlphanum (fun c => c.toUpper.isAlphanum) (by decide) letter

theorem isAlphanum_of_mem_capitalise {word : List Char} (letters : ∀ c ∈ word, c.isAlphanum) :
    ∀ c ∈ capitalise word, c.isAlphanum := by
  cases word with
  | nil => simp [capitalise]
  | cons d rest =>
    simp only [List.mem_cons, forall_eq_or_imp] at letters
    simp only [capitalise, List.mem_cons, List.mem_map, forall_eq_or_imp, forall_exists_index,
      and_imp, forall_apply_eq_imp_iff₂]
    exact ⟨isAlphanum_toUpper letters.1, fun c hc => isAlphanum_toLower (letters.2 c hc)⟩

theorem isAlphanum_of_mem_words {text word : List Char} (member : word ∈ words text) :
    ∀ c ∈ word, c.isAlphanum := by
  intro c hc
  simpa using Text.not_of_mem_piecesBy (List.mem_filter.mp member).1 c hc

/-- Pascal case keeps letters and digits only. -/
theorem isAlphanum_of_mem_pascalCase {s : String} : ∀ c ∈ (pascalCase s).toList, c.isAlphanum := by
  intro c hc
  simp only [pascalCase, String.toList_ofList, List.mem_flatMap] at hc
  obtain ⟨word, member, hc⟩ := hc
  exact isAlphanum_of_mem_capitalise (isAlphanum_of_mem_words member) c hc

/-- Pascal case does not begin in lower case. -/
theorem not_isLower_of_pascalCase {s : String} {c : Char} {rest : List Char}
    (start : (pascalCase s).toList = c :: rest) : c.isLower = false := by
  rw [pascalCase, String.toList_ofList] at start
  cases cut : words s.toList with
  | nil =>
    rw [cut] at start
    cases start
  | cons word others =>
    have member : word ∈ words s.toList := by simp [cut]
    rw [cut] at start
    cases word with
    | nil => simp [words] at member
    | cons d word =>
      simp only [List.flatMap_cons, capitalise, List.cons_append, List.cons.injEq] at start
      rw [← start.1]
      have letter := isAlphanum_of_mem_words member d List.mem_cons_self
      exact of_isAlphanum (fun c => c.toUpper.isLower = false) (by decide) letter

theorem mem_markHumps {text : List Char} {c : Char} (member : c ∈ text) : c ∈ markHumps text := by
  fun_induction markHumps text with
  | case1 a b rest hump ih => grind
  | case2 a b rest plain ih => grind
  | case3 => exact member

/-! ### Runs of capitals -/

theorem not_isLower_of_isUpper {c : Char} (capital : c.isUpper = true) :
    c.isLower = false ∧ c.isDigit = false := by
  have letter : (c.isUpper || c.isLower || c.isDigit) = true := by rw [capital]; rfl
  exact of_isAlphanum (fun c => c.isUpper = true → c.isLower = false ∧ c.isDigit = false) (by decide)
    letter capital

/-- The text begins with a capital and a lower case letter behind it. -/
def beginsWord (text : List Char) : Bool := text.head?.any Char.isUpper && text[1]?.any Char.isLower

theorem beginsWord_cons_cons (b c : Char) (rest : List Char) :
    beginsWord (b :: c :: rest) = (b.isUpper && c.isLower) := by
  simp [beginsWord]

theorem beginsWord_of_capitals {b c : Char} (capital : c.isUpper = true) (rest : List Char) :
    beginsWord (b :: c :: rest) = false := by
  rw [beginsWord_cons_cons, (not_isLower_of_isUpper capital).1, Bool.and_false]

theorem markRun_cons_cons_cons (a b c : Char) (run : List Char) :
    markRun (a :: b :: c :: run) = a :: markRun (b :: c :: run) := by
  rw [markRun, markRun, if_neg (by simp), if_neg (by simp)]
  simp

theorem markRuns_of_isUpper {c : Char} (capital : c.isUpper = true) (run rest : List Char) :
    markRuns run (c :: rest) = markRuns (run ++ [c]) rest := by
  rw [markRuns, if_pos capital]

theorem markRuns_of_not_isUpper {c : Char} (other : c.isUpper = false) (run rest : List Char) :
    markRuns run (c :: rest) =
      (if c.isLower then markRun run else run) ++ c :: markRuns [] rest := by
  rw [markRuns, if_neg (by simp [other])]

/-- A run of capitals has its mark behind the first of them exactly if the one capital that is left of
the run goes on in lower case. -/
theorem markRuns_cons {run : List Char} (capitals : ∀ c ∈ run, c.isUpper = true) (a : Char)
    (text : List Char) : markRuns (a :: run) text =
      a :: ((if beginsWord (run ++ text) then ['_'] else []) ++ markRuns run text) := by
  induction text generalizing run with
  | nil =>
    have closed : beginsWord (run ++ []) = false := by
      rcases run with _ | ⟨b, _ | ⟨c, run⟩⟩
      · rfl
      · simp [beginsWord]
      · exact beginsWord_of_capitals (capitals c (by simp)) _
    rw [closed]
    rfl
  | cons d rest ih =>
    cases capital : d.isUpper with
    | true =>
      have longer : ∀ c ∈ run ++ [d], c.isUpper = true := by
        simpa [or_imp, forall_and, capital] using capitals
      have behind := ih longer
      rw [List.append_assoc, List.singleton_append] at behind
      rw [markRuns_of_isUpper capital, markRuns_of_isUpper capital, List.cons_append, behind]
    | false =>
      rw [markRuns_of_not_isUpper capital, markRuns_of_not_isUpper capital]
      rcases run with _ | ⟨b, _ | ⟨c, run⟩⟩
      · simp [beginsWord, capital, markRun]
      · -- the one place of a mark: `a` and `b` are the whole run
        rw [List.singleton_append, beginsWord_cons_cons, capitals b (by simp), Bool.true_and]
        cases d.isLower <;> rfl
      · rw [List.cons_append, List.cons_append, beginsWord_of_capitals (capitals c (by simp)),
          markRun_cons_cons_cons]
        cases d.isLower <;> rfl

theorem markAcronyms_singleton (c : Char) : markAcronyms [c] = [c] := by
  cases capital : c.isUpper with
  | true => exact markRuns_of_isUpper capital [] []
  | false =>
    rw [markAcronyms, markRuns_of_not_isUpper capital]
    cases c.isLower <;> rfl

/-- Whether a mark stands between two letters can be told from them and the next one. -/
theorem markAcronyms_cons_cons (a b : Char) (rest : List Char) : markAcronyms (a :: b :: rest) =
    a :: ((if a.isUpper && b.isUpper && rest.head?.any Char.isLower then ['_'] else []) ++
      markAcronyms (b :: rest)) := by
  have next : beginsWord (b :: rest) = (b.isUpper && rest.head?.any Char.isLower) := by
    cases rest <;> simp [beginsWord]
  cases capital : a.isUpper with
  | true =>
    rw [markAcronyms, markRuns_of_isUpper capital, List.nil_append, markRuns_cons (by simp),
      List.nil_append, next, Bool.true_and, markAcronyms]
  | false =>
    rw [markAcronyms, markRuns_of_not_isUpper capital]
    cases a.isLower <;> rfl

theorem mem_markAcronyms {text : List Char} {c : Char} (member : c ∈ text) :
    c ∈ markAcronyms text := by
  induction text with
  | nil => cases member
  | cons a rest ih =>
    cases rest with
    | nil => rwa [markAcronyms_singleton]
    | cons b rest =>
      rw [markAcronyms_cons_cons, List.mem_cons, List.mem_append]
      exact (List.mem_cons.mp member).imp_right fun behind => .inr (ih behind)

/-- A text with an ASCII letter or digit in it has a name in camel case. -/
theorem camelCase_ne_empty {s : String} {c : Char} (member : c ∈ s.toList) (letter : c.isAlphanum) :
    camelCase s ≠ "" := by
  obtain ⟨word, among, here⟩ := Text.exists_mem_piecesBy (p := fun c => !c.isAlphanum)
    (mem_markAcronyms (mem_markHumps member)) (by simpa using letter)
  have kept : word ∈ words s.toList :=
    List.mem_filter.mpr ⟨among, decide_eq_true (List.ne_nil_of_mem here)⟩
  have some : (pascalCase s).toList ≠ [] := by
    rw [pascalCase, String.toList_ofList]
    intro empty
    have none := List.flatMap_eq_nil_iff.mp empty word kept
    cases word with
    | nil => cases here
    | cons d word => cases none
  unfold camelCase
  split
  · next empty => exact absurd empty some
  · intro empty
    have none := congrArg String.toList empty
    simp at none

/-- A placeholder has an identifier if its name is one or has an ASCII letter or digit in it. -/
theorem placeholderIdentifier_ne_empty {name : String}
    (named : isIdentifier name = true ∨ ∃ c ∈ name.toList, c.isAlphanum = true) :
    placeholderIdentifier name ≠ "" := by
  unfold placeholderIdentifier
  split
  · next identifier =>
    rintro rfl
    exact absurd identifier (by decide)
  · next other =>
    obtain ⟨c, member, letter⟩ := named.resolve_left other
    exact camelCase_ne_empty member letter

end Naming

theorem Reference.isAlphanum_of_mem_typeName (r : Reference) :
    ∀ c ∈ r.typeName.toList, c.isAlphanum := by
  intro c hc
  simp only [typeName, String.toList_append, List.mem_append] at hc
  rcases hc with hc | hc
  · exact Naming.isAlphanum_of_mem_pascalCase c hc
  · have letters : r.namespace_.ending.toList.all Char.isAlphanum = true := by
      cases r.namespace_ <;> decide
    exact List.all_eq_true.mp letters c hc

end TypedClient
