import TypedClient.Proofs.Naming.Letters
import TypedClient.Proofs.Text.Lists

/-!
# Words of names

Pascal case cuts a text into words in three steps: two of them mark boundaries between letters, one
after the other, and the third one cuts at the marks and at everything that no name keeps. What comes out
can be told from each position of the text by the characters next to it. So no letter and no digit is
lost, and a name is an identifier exactly if it was made from a text whose first letter or digit is a
letter.
-/
namespace TypedClient.Naming

/-- Whether a word starts at a position of a text: at the first letter or digit, behind what is neither,
at a capital behind a lower case letter or a digit, and at a capital between a capital and a lower case
letter. -/
def startsWord (text : List Char) (i : Nat) : Bool :=
  let before := (text.take i).getLast?
  let capital := text[i]?.any Char.isUpper
  !(text.take i).any Char.isAlphanum || before.any (fun c => !c.isAlphanum) ||
    capital && before.any (fun c => c.isLower || c.isDigit) ||
    capital && before.any Char.isUpper && text[i + 1]?.any Char.isLower

/-- What a name has for the character at a position of a text. -/
def kept (text : List Char) (c : Char) (i : Nat) : Option Char :=
  if c.isAlphanum then some (if startsWord text i then c.toUpper else c.toLower) else none

/-! ### Words in one pass -/

/-- The words of a text in the case of a name, from inside a word or from outside of one. -/
def spell (inside : Bool) : List Char → List Char
  | [] => []
  | c :: rest =>
    if c.isAlphanum then (if inside then c.toLower else c.toUpper) :: spell true rest
    else spell false rest

theorem flatMap_capitalise_filter (pieces : List (List Char)) :
    (pieces.filter (· ≠ [])).flatMap capitalise = pieces.flatMap capitalise := by
  induction pieces with
  | nil => rfl
  | cons piece pieces ih =>
    cases piece with
    | nil => exact ih
    | cons c piece => rw [List.filter_cons_of_pos (by simp), List.flatMap_cons, ih, List.flatMap_cons]

/-- The first piece goes on with a word or starts one, each other piece starts one. -/
theorem spell_eq_pieces (text : List Char) :
    ∃ piece pieces, Text.piecesBy (fun c => !c.isAlphanum) text = piece :: pieces ∧
      spell true text = piece.map Char.toLower ++ pieces.flatMap capitalise ∧
      spell false text = capitalise piece ++ pieces.flatMap capitalise := by
  induction text with
  | nil => exact ⟨[], [], rfl, rfl, rfl⟩
  | cons c text ih =>
    obtain ⟨piece, pieces, cut, goesOn, starts⟩ := ih
    by_cases letter : c.isAlphanum = true
    · exact ⟨c :: piece, pieces, by simp [Text.piecesBy, cut, letter], by simp [spell, letter, goesOn],
        by simp [spell, letter, goesOn, capitalise]⟩
    · exact ⟨[], piece :: pieces, by simp [Text.piecesBy, cut, letter], by simp [spell, letter, starts],
        by simp [spell, letter, starts, capitalise]⟩

theorem flatMap_capitalise_words (text : List Char) :
    (words text).flatMap capitalise = spell false (markAcronyms (markHumps text)) := by
  obtain ⟨piece, pieces, cut, -, starts⟩ := spell_eq_pieces (markAcronyms (markHumps text))
  rw [words, flatMap_capitalise_filter, cut, starts, List.flatMap_cons]

/-! ### Boundaries between two letters -/

/-- Whether a boundary is marked between two characters, with a third one behind them. -/
def isBoundary (a b : Char) (next : Option Char) : Bool :=
  b.isUpper && (a.isLower || a.isDigit) || b.isUpper && a.isUpper && next.any Char.isLower

/-- Nothing is marked directly behind a capital. -/
theorem markHumps_cons (c : Char) (rest : List Char) :
    ∃ marked, markHumps (c :: rest) = c :: marked ∧
      (c.isUpper = true → marked.head? = rest.head?) := by
  cases rest with
  | nil => exact ⟨[], rfl, fun _ => rfl⟩
  | cons b rest =>
    have first : ∀ b rest, (markHumps (b :: rest)).head? = some b := fun b rest => by
      cases rest with
      | nil => rfl
      | cons d rest =>
        rw [markHumps]
        split <;> rfl
    rw [markHumps]
    split
    · next hump =>
      refine ⟨_, rfl, fun capital => ?_⟩
      obtain ⟨notLower, notDigit⟩ := not_isLower_of_isUpper capital
      simp [notLower, notDigit] at hump
    · exact ⟨_, rfl, fun _ => first b rest⟩

theorem marks_singleton (c : Char) : markAcronyms (markHumps [c]) = [c] := markAcronyms_singleton c

/-- The two passes over a text mark the boundaries in it, each in its place. -/
theorem marks_cons (a b : Char) (rest : List Char) :
    markAcronyms (markHumps (a :: b :: rest)) =
      a :: ((if isBoundary a b rest.head? then ['_'] else []) ++
        markAcronyms (markHumps (b :: rest))) := by
  obtain ⟨marked, same, next⟩ := markHumps_cons b rest
  rw [markHumps]
  split
  · next hump =>
    have boundary : isBoundary a b rest.head? = true := by
      rw [Bool.and_comm] at hump
      simp [isBoundary, hump]
    -- the mark that the first pass has put there is no capital
    have mark : '_'.isUpper = false := by decide
    rw [same, boundary, markAcronyms_cons_cons, markAcronyms_cons_cons, mark]
    simp
  · next level =>
    have boundary : isBoundary a b rest.head? =
        (a.isUpper && b.isUpper && marked.head?.any Char.isLower) := by
      by_cases capital : b.isUpper = true
      · simp only [capital, Bool.and_true, Bool.not_eq_true] at level
        simp [isBoundary, capital, level, next capital]
      · simp [isBoundary, capital]
    rw [same, boundary, markAcronyms_cons_cons]

/-! ### Positions -/

/-- Whether a word starts shows in the character before the position and in the two from there on. -/
theorem startsWord_eq (before : List Char) (c : Char) (after : List Char) :
    startsWord (before ++ c :: after) before.length =
      before.getLast?.all fun b => !b.isAlphanum || isBoundary b c after.head? := by
  have here : (before ++ c :: after)[before.length]? = some c := by simp
  have behind : (before ++ c :: after)[before.length + 1]? = after.head? := by
    rw [List.getElem?_append_right (Nat.le_succ _), List.head?_eq_getElem?]
    simp
  rw [startsWord, List.take_left, here, behind]
  cases last : before.getLast? with
  | none => simp [List.getLast?_eq_none_iff.mp last]
  | some b =>
    have member := List.mem_of_getLast? last
    by_cases letter : b.isAlphanum = true
    · have some : before.any Char.isAlphanum = true := List.any_eq_true.mpr ⟨b, member, letter⟩
      simp [some, letter, isBoundary, Bool.and_assoc]
    · simp [letter]

theorem spell_cons (inside : Bool) (c : Char) (rest : List Char) :
    spell inside (c :: rest) =
      (if c.isAlphanum then [if inside then c.toLower else c.toUpper] else []) ++
        spell c.isAlphanum rest := by
  rw [spell]
  cases c.isAlphanum <;> rfl

/-- A mark ends a word. -/
theorem spell_mark (inside marked : Bool) (rest : List Char) :
    spell inside ((if marked then ['_'] else []) ++ rest) = spell (inside && !marked) rest := by
  cases marked
  · simp
  · simp [spell]

theorem filterMap_kept_cons (before : List Char) (c : Char) (after : List Char) :
    ((c :: after).zipIdx before.length).filterMap (fun p => kept (before ++ c :: after) p.1 p.2) =
      (if c.isAlphanum then
        [if !startsWord (before ++ c :: after) before.length then c.toLower else c.toUpper] else []) ++
      (after.zipIdx (before.length + 1)).filterMap fun p => kept (before ++ c :: after) p.1 p.2 := by
  rw [List.zipIdx_cons, List.filterMap_cons]
  simp only [kept]
  cases c.isAlphanum <;> cases startsWord (before ++ c :: after) before.length <;> rfl

/-- From the position of `c` on, each character is kept as its own position tells. -/
theorem spell_marks (before : List Char) (c : Char) (rest : List Char) :
    spell (!startsWord (before ++ c :: rest) before.length) (markAcronyms (markHumps (c :: rest))) =
      ((c :: rest).zipIdx before.length).filterMap fun p => kept (before ++ c :: rest) p.1 p.2 := by
  induction rest generalizing before c with
  | nil =>
    rw [marks_singleton, spell_cons, filterMap_kept_cons]
    rfl
  | cons d rest ih =>
    have behind := ih (before ++ [c]) d
    have inside : (!startsWord (before ++ [c] ++ d :: rest) (before ++ [c]).length) =
        (c.isAlphanum && !isBoundary c d rest.head?) := by
      rw [startsWord_eq, List.getLast?_concat]
      simp
    rw [inside, List.length_append, List.length_singleton, List.append_assoc, List.singleton_append] at behind
    rw [marks_cons, spell_cons, spell_mark, behind, filterMap_kept_cons]

/-- A name has what is kept of each position of its text, in their order. -/
theorem toList_pascalCase (s : String) :
    (pascalCase s).toList = s.toList.zipIdx.filterMap fun p => kept s.toList p.1 p.2 := by
  rw [pascalCase, String.toList_ofList, flatMap_capitalise_words]
  cases s.toList with
  | nil => rfl
  | cons c rest =>
    have first : startsWord ([] ++ c :: rest) 0 = true := startsWord_eq [] c rest
    have all := spell_marks [] c rest
    rw [List.length_nil, first] at all
    exact all

/-! ### Letters and digits -/

theorem toLower_toUpper {c : Char} (letter : c.isAlphanum = true) : c.toUpper.toLower = c.toLower :=
  of_isAlphanum (fun c => c.toUpper.toLower = c.toLower) (by decide) letter

theorem toLower_toLower {c : Char} (letter : c.isAlphanum = true) : c.toLower.toLower = c.toLower :=
  of_isAlphanum (fun c => c.toLower.toLower = c.toLower) (by decide) letter

theorem isAlpha_toLower {c : Char} (letter : c.isAlphanum = true) : c.toLower.isAlpha = c.isAlpha :=
  of_isAlphanum (fun c => c.toLower.isAlpha = c.isAlpha) (by decide) letter

/-- But for their case, a name has the letters and digits of its text, each once and in their order. -/
theorem map_toLower_pascalCase (s : String) :
    (pascalCase s).toList.map Char.toLower = (s.toList.filter Char.isAlphanum).map Char.toLower := by
  have each : ∀ p : Char × Nat, (kept s.toList p.1 p.2).map Char.toLower =
      if p.1.isAlphanum then some p.1.toLower else none := fun p => by
    unfold kept
    split
    · next letter => split <;> simp [toLower_toUpper letter, toLower_toLower letter]
    · rfl
  have filtered : ∀ c : Char, (Option.guard Char.isAlphanum c).bind (some ∘ Char.toLower) =
      if c.isAlphanum then some c.toLower else none := fun c => by
    cases letter : c.isAlphanum <;> simp [Option.guard, letter]
  calc (pascalCase s).toList.map Char.toLower
      = s.toList.zipIdx.filterMap fun p => if p.1.isAlphanum then some p.1.toLower else none := by
        rw [toList_pascalCase, List.map_filterMap]
        simp only [each]
    _ = (s.toList.zipIdx.map Prod.fst).filterMap fun c =>
          if c.isAlphanum then some c.toLower else none := by
        rw [List.filterMap_map]
        rfl
    _ = (s.toList.filter Char.isAlphanum).map Char.toLower := by
        rw [List.zipIdx_map_fst, ← List.filterMap_eq_map, ← List.filterMap_eq_filter,
          List.filterMap_filterMap]
        simp only [filtered]

/-- Letters and digits are an identifier exactly if a letter is the first. -/
theorem isIdentifier_of_isAlphanum {s : String} (letters : ∀ c ∈ s.toList, c.isAlphanum = true) :
    isIdentifier s = s.toList.head?.any Char.isAlpha := by
  have unbroken : Text.dropFinalBreak s.toList = s.toList :=
    Text.dropFinalBreak_eq_self fun member => absurd (letters _ member) (by decide)
  have start : ∀ c, c.isAlphanum = true → isIdentifierStart c = c.isAlpha := fun c letter =>
    of_isAlphanum (fun c => isIdentifierStart c = c.isAlpha) (by decide) letter
  have goesOn : ∀ c, c.isAlphanum = true → isIdentifierChar c = true := fun c letter =>
    of_isAlphanum (fun c => isIdentifierChar c = true) (by decide) letter
  rw [isIdentifier, unbroken]
  cases text : s.toList with
  | nil => rfl
  | cons c rest =>
    rw [text, List.forall_mem_cons] at letters
    have others : rest.all isIdentifierChar = true :=
      List.all_eq_true.mpr fun d member => goesOn d (letters.2 d member)
    simp [start c letters.1, others]

/-- The first letter or digit of the text is a letter. -/
def beginsWithLetter (s : String) : Bool := (s.toList.find? Char.isAlphanum).any Char.isAlpha

theorem any_isAlpha_map_toLower {o : Option Char} (letters : ∀ c ∈ o, c.isAlphanum = true) :
    (o.map Char.toLower).any Char.isAlpha = o.any Char.isAlpha := by
  cases o with
  | none => rfl
  | some c => exact isAlpha_toLower (letters c rfl)

/-- Letters and digits that are those of a text but for their case are an identifier exactly if the
text has a letter first. -/
theorem isIdentifier_of_map_toLower {s t : String} (letters : ∀ c ∈ t.toList, c.isAlphanum = true)
    (same : t.toList.map Char.toLower = (s.toList.filter Char.isAlphanum).map Char.toLower) :
    isIdentifier t = beginsWithLetter s := by
  have heads := congrArg (fun cs => cs.head?.any Char.isAlpha) same
  simp only [List.head?_map, List.head?_filter] at heads
  rwa [any_isAlpha_map_toLower fun c first => letters c (List.mem_of_head? first),
    any_isAlpha_map_toLower fun c found => List.find?_some found,
    ← isIdentifier_of_isAlphanum letters] at heads

theorem isIdentifier_pascalCase (s : String) : isIdentifier (pascalCase s) = beginsWithLetter s :=
  isIdentifier_of_map_toLower isAlphanum_of_mem_pascalCase (map_toLower_pascalCase s)

/-! ### Camel case -/

theorem toList_camelCase (s : String) :
    (camelCase s).toList = (pascalCase s).toList.modifyHead Char.toLower := by
  unfold camelCase
  split
  · next empty => simp [empty]
  · next c rest text => simp [text]

theorem map_toLower_camelCase (s : String) :
    (camelCase s).toList.map Char.toLower = (s.toList.filter Char.isAlphanum).map Char.toLower := by
  rw [← map_toLower_pascalCase, toList_camelCase]
  cases text : (pascalCase s).toList with
  | nil => rfl
  | cons c rest =>
    have letter := isAlphanum_of_mem_pascalCase c (text ▸ List.mem_cons_self)
    simp [toLower_toLower letter]

theorem isAlphanum_of_mem_camelCase {s : String} : ∀ c ∈ (camelCase s).toList, c.isAlphanum = true := by
  intro c member
  rw [toList_camelCase] at member
  cases text : (pascalCase s).toList with
  | nil => simp [text] at member
  | cons d rest =>
    have letters := @isAlphanum_of_mem_pascalCase s
    rw [text, List.forall_mem_cons] at letters
    rw [text, List.modifyHead_cons, List.mem_cons] at member
    rcases member with rfl | member
    · exact isAlphanum_toLower letters.1
    · exact letters.2 c member

theorem isIdentifier_camelCase (s : String) : isIdentifier (camelCase s) = beginsWithLetter s :=
  isIdentifier_of_map_toLower isAlphanum_of_mem_camelCase (map_toLower_camelCase s)

/-- A text without letters and digits has no name. -/
theorem camelCase_eq_empty_iff {s : String} :
    camelCase s = "" ↔ ∀ c ∈ s.toList, c.isAlphanum = false := by
  have length := congrArg List.length (map_toLower_camelCase s)
  rw [List.length_map, List.length_map] at length
  rw [← String.toList_eq_nil_iff, ← List.length_eq_zero_iff, length, List.length_eq_zero_iff,
    List.filter_eq_nil_iff]
  simp

/-! ### Pascal case -/

/-- A name is what is kept of each position of its text: the letters and digits, in upper case where a
word starts and in lower case elsewhere. So they are all there, each once and in their order, and the
name is an identifier exactly if the first of them is a letter. -/
theorem pascalCase_by_position (s : String) :
    pascalCase s = String.ofList (s.toList.zipIdx.filterMap fun p => kept s.toList p.1 p.2) ∧
      (pascalCase s).toList.map Char.toLower =
        (s.toList.filter Char.isAlphanum).map Char.toLower ∧
      isIdentifier (pascalCase s) = beginsWithLetter s :=
  ⟨String.toList_inj.mp (by rw [toList_pascalCase, String.toList_ofList]), map_toLower_pascalCase s,
    isIdentifier_pascalCase s⟩

example : pascalCase "HTTPErrors of pet-store v1" = "HttpErrorsOfPetStoreV1" := by decide +kernel

end TypedClient.Naming
