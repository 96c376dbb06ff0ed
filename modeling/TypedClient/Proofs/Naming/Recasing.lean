import TypedClient.Proofs.Naming.Words

/-!
# Names that are cased again

A name has no separators any more, so its words are told apart by their capitals alone. A word of one
letter leaves a capital behind which the next word is lost, unless a lower case letter shows that a word
starts there: `a_b` is named `AB`, which is one word. So pascal case leaves a name as it is exactly if no
two words of its text run together.
-/
namespace TypedClient.Naming

/-- Whether two words in a row are told apart by their capitals: unless the first is a single letter and
the second begins with a letter that no other letter follows. -/
def staysApart (word next : List Char) : Bool :=
  !(word.length = 1 && word.all Char.isAlpha && next.head?.any Char.isAlpha &&
    !next.tail.head?.any Char.isAlpha)

/-- No two words of a text run together in its name. -/
def KeepsWords (s : String) : Prop :=
  (words s.toList).IsChain fun word next => staysApart word next = true

instance (s : String) : Decidable (KeepsWords s) :=
  inferInstanceAs (Decidable (List.IsChain _ _))

/-! ### Capitals -/

/-- Each capital behind a character stands at a boundary. -/
def areBoundaries : List Char → Bool
  | a :: b :: rest => (!b.isUpper || isBoundary a b rest.head?) && areBoundaries (b :: rest)
  | _ => true

theorem toUpper_eq_self {c : Char} (capital : c.isUpper = true) : c.toUpper = c := by
  have letter : (c.isUpper || c.isLower || c.isDigit) = true := by rw [capital]; rfl
  exact of_isAlphanum (fun c => c.isUpper = true → c.toUpper = c) (by decide) letter capital

theorem toLower_eq_self_iff {c : Char} (letter : c.isAlphanum = true) :
    c.toLower = c ↔ c.isUpper = false :=
  of_isAlphanum (fun c => c.toLower = c ↔ c.isUpper = false) (by decide) letter

theorem isUpper_of_isBoundary {a b : Char} {next : Option Char} (boundary : isBoundary a b next = true) :
    b.isUpper = true := by
  unfold isBoundary at boundary
  cases capital : b.isUpper with
  | true => rfl
  | false => simp [capital] at boundary

/-- Letters and digits from the first on are spelled as they are exactly if the first one is, and each
capital behind it stands at a boundary. -/
theorem spell_marks_eq_self_iff {inside : Bool} {c : Char} {rest : List Char}
    (letters : ∀ d ∈ c :: rest, d.isAlphanum = true) :
    spell inside (markAcronyms (markHumps (c :: rest))) = c :: rest ↔
      (if inside then c.toLower else c.toUpper) = c ∧ areBoundaries (c :: rest) = true := by
  induction rest generalizing inside c with
  | nil =>
    rw [marks_singleton, spell_cons, letters c List.mem_cons_self]
    simp [spell, areBoundaries]
  | cons b rest ih =>
    obtain ⟨first, letters⟩ := List.forall_mem_cons.mp letters
    have second := letters b List.mem_cons_self
    rw [marks_cons, spell_cons, spell_mark, first, if_pos rfl, List.singleton_append,
      List.cons.injEq, Bool.true_and, ih letters, areBoundaries]
    refine and_congr_right fun _ => ?_
    cases boundary : isBoundary c b rest.head? with
    | true => simp [toUpper_eq_self (isUpper_of_isBoundary boundary)]
    | false => simp [toLower_eq_self_iff second]

/-! ### Words -/

/-- The characters of a word behind its first one stand at no boundary. -/
theorem areBoundaries_map_toLower {a : Char} {word rest : List Char}
    (letters : ∀ c ∈ word, c.isAlphanum = true) :
    areBoundaries (a :: (word.map Char.toLower ++ rest)) =
      areBoundaries ((a :: word.map Char.toLower).getLast (List.cons_ne_nil _ _) :: rest) := by
  induction word generalizing a with
  | nil => rfl
  | cons c word ih =>
    obtain ⟨letter, letters⟩ := List.forall_mem_cons.mp letters
    have level : c.toLower.isUpper = false :=
      of_isAlphanum (fun c => c.toLower.isUpper = false) (by decide) letter
    rw [List.map_cons, List.cons_append, areBoundaries, level, Bool.not_false, Bool.true_or,
      Bool.true_and, ih letters, List.getLast_cons_cons]

theorem isUpper_toUpper {c : Char} (letter : c.isAlphanum = true) : c.toUpper.isUpper = c.isAlpha :=
  of_isAlphanum (fun c => c.toUpper.isUpper = c.isAlpha) (by decide) letter

theorem isLower_toLower {c : Char} (letter : c.isAlphanum = true) : c.toLower.isLower = c.isAlpha :=
  of_isAlphanum (fun c => c.toLower.isLower = c.isAlpha) (by decide) letter

theorem isLower_toUpper {c : Char} (letter : c.isAlphanum = true) :
    c.toUpper.isLower = false ∧ c.toUpper.isDigit = !c.isAlpha :=
  of_isAlphanum (fun c => c.toUpper.isLower = false ∧ c.toUpper.isDigit = !c.isAlpha) (by decide) letter

/-- A letter or digit of a word behind its first one is in lower case or a digit. -/
theorem isLower_or_isDigit_toLower {c : Char} (letter : c.isAlphanum = true) :
    (c.toLower.isLower || c.toLower.isDigit) = true :=
  of_isAlphanum (fun c => (c.toLower.isLower || c.toLower.isDigit) = true) (by decide) letter

/-- What words are made of. -/
def AreWords (ws : List (List Char)) : Prop :=
  ∀ word ∈ ws, word ≠ [] ∧ ∀ c ∈ word, c.isAlphanum = true

theorem areWords_words (text : List Char) : AreWords (words text) := fun word member =>
  ⟨by simpa using (List.mem_filter.mp member).2, isAlphanum_of_mem_words member⟩

/-- No word starts in lower case. -/
theorem isLower_head?_capitalised {ws : List (List Char)} (wordly : AreWords ws) :
    (ws.flatMap capitalise).head?.any Char.isLower = false := by
  cases ws with
  | nil => rfl
  | cons word ws =>
    obtain ⟨some, letters⟩ := wordly word List.mem_cons_self
    obtain ⟨c, rest, rfl⟩ := List.exists_cons_of_ne_nil some
    exact (isLower_toUpper (letters c List.mem_cons_self)).1

/-- The last character of a word in its name and the first one of the next word stand at a boundary, if
the next word starts with a capital at all, exactly if the two words stay apart. -/
theorem boundary_between_words {c d : Char} {word next : List Char} {ws : List (List Char)}
    (first : ∀ x ∈ c :: word, x.isAlphanum = true) (second : ∀ x ∈ d :: next, x.isAlphanum = true)
    (wordly : AreWords ws) :
    (!d.toUpper.isUpper ||
      isBoundary ((c.toUpper :: word.map Char.toLower).getLast (List.cons_ne_nil _ _)) d.toUpper
        (next.map Char.toLower ++ ws.flatMap capitalise).head?) =
      staysApart (c :: word) (d :: next) := by
  have behind : (next.map Char.toLower ++ ws.flatMap capitalise).head?.any Char.isLower =
      next.head?.any Char.isAlpha := by
    cases next with
    | nil => exact isLower_head?_capitalised wordly
    | cons e next => exact isLower_toLower (second e (by simp))
  rw [isBoundary, behind, isUpper_toUpper (second d List.mem_cons_self)]
  rcases List.eq_nil_or_concat word with rfl | ⟨word, e, rfl⟩
  · have letter := first c List.mem_cons_self
    obtain ⟨notLower, digit⟩ := isLower_toUpper letter
    simp only [List.map_nil, List.getLast_singleton, notLower, digit, isUpper_toUpper letter, staysApart,
      List.length_singleton, List.all_cons, List.all_nil, List.head?_cons, List.tail_cons, Option.any_some]
    generalize d.isAlpha = x, c.isAlpha = y, next.head?.any Char.isAlpha = z
    revert x y z
    decide
  · have last : (c.toUpper :: (word.concat e).map Char.toLower).getLast (List.cons_ne_nil _ _) =
        e.toLower := by
      simp
    have longer : (c :: word.concat e).length ≠ 1 := by simp
    rw [last, isLower_or_isDigit_toLower (first e (by simp)), staysApart, decide_eq_false longer]
    cases d.isAlpha <;> rfl

/-- The capitals of a name stand at boundaries exactly if its words stay apart. -/
theorem areBoundaries_flatMap_iff {ws : List (List Char)} (wordly : AreWords ws) :
    areBoundaries (ws.flatMap capitalise) = true ↔
      ws.IsChain fun word next => staysApart word next = true := by
  induction ws with
  | nil => simp [areBoundaries]
  | cons word ws ih =>
    obtain ⟨⟨some, first⟩, others⟩ := List.forall_mem_cons.mp wordly
    obtain ⟨c, word, rfl⟩ := List.exists_cons_of_ne_nil some
    rw [List.flatMap_cons, capitalise, List.cons_append,
      areBoundaries_map_toLower (fun x member => first x (List.mem_cons_of_mem _ member))]
    cases ws with
    | nil => simp [areBoundaries]
    | cons next ws =>
      obtain ⟨⟨some, second⟩, behind⟩ := List.forall_mem_cons.mp others
      obtain ⟨d, next, rfl⟩ := List.exists_cons_of_ne_nil some
      rw [List.isChain_cons_cons, ← ih others, List.flatMap_cons, capitalise, List.cons_append,
        areBoundaries, boundary_between_words first second behind, Bool.and_eq_true]

/-- The first character of a name is in upper case, and comes back to it. -/
theorem toUpper_of_pascalCase {s : String} {c : Char} {rest : List Char}
    (start : (pascalCase s).toList = c :: rest) : c.toUpper = c ∧ c.toLower.toUpper = c := by
  have letter := isAlphanum_of_mem_pascalCase c (start ▸ List.mem_cons_self)
  exact of_isAlphanum (fun c => c.isLower = false → c.toUpper = c ∧ c.toLower.toUpper = c) (by decide)
    letter (not_isLower_of_pascalCase start)

/-- Pascal case leaves a name as it is exactly if no two words run together in it. -/
theorem pascalCase_pascalCase_iff (s : String) :
    pascalCase (pascalCase s) = pascalCase s ↔ KeepsWords s := by
  have wordly := areWords_words s.toList
  have spelled : (pascalCase (pascalCase s)).toList =
      spell false (markAcronyms (markHumps (pascalCase s).toList)) := by
    rw [pascalCase, String.toList_ofList, flatMap_capitalise_words]
  rw [← String.toList_inj, spelled, KeepsWords, ← areBoundaries_flatMap_iff wordly,
    ← String.toList_ofList (l := (words s.toList).flatMap capitalise), ← pascalCase]
  cases name : (pascalCase s).toList with
  | nil => exact iff_of_true rfl rfl
  | cons c rest =>
    have letters := @isAlphanum_of_mem_pascalCase s
    rw [name] at letters
    rw [spell_marks_eq_self_iff letters]
    simp [(toUpper_of_pascalCase name).1]

/-- Whatever is cased again in camel case stays as it is where it does so in pascal case. -/
theorem camelCase_pascalCase_iff (s : String) :
    camelCase (pascalCase s) = camelCase s ↔ pascalCase (pascalCase s) = pascalCase s := by
  have letters := map_toLower_pascalCase (pascalCase s)
  rw [List.filter_eq_self.mpr isAlphanum_of_mem_pascalCase] at letters
  rw [← String.toList_inj, ← String.toList_inj, toList_camelCase, toList_camelCase]
  cases name : (pascalCase s).toList with
  | nil =>
    rw [name, List.map_nil, List.map_eq_nil_iff] at letters
    simp [letters]
  | cons c rest =>
    cases again : (pascalCase (pascalCase s)).toList with
    | nil => simp [name, again] at letters
    | cons d others =>
      rw [name, again, List.map_cons, List.map_cons, List.cons.injEq] at letters
      obtain rfl : d = c := by
        rw [← (toUpper_of_pascalCase name).2, ← letters.1, (toUpper_of_pascalCase again).2]
      simp

end TypedClient.Naming
