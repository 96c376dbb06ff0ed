import TypedClient.Proofs.Model.Enumeration
import TypedClient.Proofs.TypeText.Writing

/-!
# Literals and keys

A text is written as a literal or as a key wherever it is a value of an enumeration or the name of a
property. It is read from there as one token that says the text, whatever stands around it, exactly if it
has no line break. A literal with a line break is no token at all. A word with a line break behind it is
taken for a word, so it is a key without quotes that says the word alone.
-/
namespace TypedClient

namespace TypeText

/-! ### Literals -/

/-- No literal says a text with a line break. -/
theorem readLiteral_flatMap_of_break {text : List Char} (broken : ∃ c ∈ text, isBreak c = true)
    (rest : List Char) : readLiteral false (text.flatMap escapeChar ++ rest) = none := by
  induction text with
  | nil =>
    obtain ⟨c, member, -⟩ := broken
    cases member
  | cons c text ih =>
    rw [List.flatMap_cons, List.append_assoc]
    have behind : isBreak c = false → readLiteral false (text.flatMap escapeChar ++ rest) = none := by
      intro unbroken
      obtain ⟨d, member, here⟩ := broken
      refine ih ⟨d, (List.mem_cons.mp member).resolve_left fun same => ?_, here⟩
      rw [same, unbroken] at here
      cases here
    by_cases marked : (c = '\\' || c = '\'') = true
    · have escape : escapeChar c = ['\\', c] := if_pos marked
      have unbroken : isBreak c = false := by
        simp only [Bool.or_eq_true, decide_eq_true_eq] at marked
        rcases marked with rfl | rfl <;> rfl
      rw [escape]
      simp only [List.cons_append, List.nil_append, readLiteral, behind unbroken, marked, if_true]
      rfl
    · have escape : escapeChar c = [c] := if_neg marked
      simp only [Bool.or_eq_true, decide_eq_true_eq, not_or] at marked
      rw [escape]
      by_cases here : isBreak c = true
      · simp [readLiteral, marked.1, marked.2, here]
      · simp [readLiteral, behind (Bool.eq_false_iff.mpr here), marked.1, marked.2]

theorem isUnbroken_eq_false_iff {s : String} :
    isUnbroken s = false ↔ ∃ c ∈ s.toList, isBreak c = true := by
  simp [isUnbroken]

/-- A literal is one token wherever it stands, or nothing that can be read. -/
theorem lex_literal_append (s : String) (rest : List Char) :
    lex ((literal s).toList ++ rest) =
      if isUnbroken s then (lex rest).map (.literal s :: ·) else none := by
  have opens : lex ((literal s).toList ++ rest) =
      (readLiteral false (s.toList.flatMap escapeChar ++ '\'' :: rest)).bind fun r =>
        (lex r.2).map (.literal (String.ofList r.1) :: ·) := by
    rw [toList_literal, List.cons_append, List.append_assoc, List.singleton_append, lex,
      if_neg (by decide), if_neg (by decide), if_pos rfl]
    split
    · next said behind found => rw [found, Option.bind_some]
    · next none => rw [none, Option.bind_none]
  cases unbroken : isUnbroken s with
  | true =>
    have plain : ∀ c ∈ s.toList, isBreak c = false := by simpa [isUnbroken] using unbroken
    rw [opens, readLiteral_flatMap plain]
    simp
  | false =>
    rw [opens, readLiteral_flatMap_of_break (isUnbroken_eq_false_iff.mp unbroken)]
    rfl

/-! ### Keys -/

/-- A word is taken for an identifier, and so is a word with a line feed behind it. -/
theorem isIdentifier_iff {s : String} :
    Naming.isIdentifier s = true ↔ isWord s = true ∨ ∃ w, isWord w = true ∧ s = w ++ "\n" := by
  rw [isIdentifier_eq]
  constructor
  · intro word
    by_cases final : s.toList.getLast? = some '\n'
    · have dropped : Text.dropFinalBreak s.toList = s.toList.dropLast := if_pos final
      rw [dropped] at word
      refine .inr ⟨_, word, String.toList_inj.mp ?_⟩
      rw [String.toList_append, String.toList_ofList]
      exact (List.dropLast_append_getLast? _ final).symm
    · have whole : Text.dropFinalBreak s.toList = s.toList := if_neg final
      rw [whole, String.ofList_toList] at word
      exact .inl word
  · rintro (word | ⟨w, word, rfl⟩)
    · rwa [dropFinalBreak_of_isUnbroken (isUnbroken_of_isWord word), String.ofList_toList]
    · have dropped : Text.dropFinalBreak (w ++ "\n").toList = w.toList := by
        simp [Text.dropFinalBreak]
      rwa [dropped, String.ofList_toList]

/-- The key of a word is the word. What is no word has its literal for a key, if it is not a word with a
line feed behind it, which is its own key and says the word. -/
theorem propertyKey_eq (s : String) :
    isWord s = true ∧ propertyKey s = s ∨
      isWord s = false ∧ (propertyKey s = literal s ∨
        ∃ w, isWord w = true ∧ s = w ++ "\n" ∧ propertyKey s = s ∧ Lexes s.toList [.name w]) := by
  unfold propertyKey
  cases word : isWord s with
  | true => exact .inl ⟨rfl, if_pos (isIdentifier_iff.mpr (.inl word))⟩
  | false =>
    refine .inr ⟨rfl, ?_⟩
    split
    · next identifier =>
      obtain ⟨w, here, rfl⟩ := (isIdentifier_iff.mp identifier).resolve_left (by simp [word])
      refine .inr ⟨w, here, rfl, rfl, ?_⟩
      have feed : Lexes ['\n'] [] := lexes_nil.skip (by decide)
      rw [String.toList_append]
      exact (lexes_word here).append feed (stops_cons (by decide))
    · exact .inl rfl

/-- A token that says a text of its own has no line break in it. -/
theorem isUnbroken_of_lexes {text : List Char} {s : String} {key : Token} {ts : List Token}
    (isKey : key.IsKey s) (cut : Lexes text (key :: ts)) : isUnbroken s = true := by
  have all := cut [] (by simp [Stops])
  rw [List.append_nil, lex, Option.map_some, List.append_nil] at all
  have spelled := isSpelled_of_mem_lex all key List.mem_cons_self
  rcases isKey with rfl | rfl
  · exact isUnbroken_of_isWord spelled
  · exact spelled

/-- What is read of a text begins with a token that says `s`. -/
def SaysFirst (s : String) (text : List Char) (others : List Token) : Prop :=
  ∃ key : Token, key.IsKey s ∧ Lexes text (key :: others)

end TypeText

namespace Model

open TypeText (Lexes SaysFirst Token literal propertyKey isWord isUnbroken lex)

/-- A key in a record is read with the type behind it. -/
theorem saysFirst_memberText_iff {s type : String} {ts : List Token} (cut : Lexes type.toList ts)
    (required : Bool) :
    SaysFirst s (Schema.memberText (propertyKey s) required type).toList
        ((if required then [] else [.mark .question]) ++ .mark .colon :: ts) ↔
      isUnbroken s = true := by
  constructor
  · rintro ⟨key, isKey, cut⟩
    exact TypeText.isUnbroken_of_lexes isKey cut
  · intro unbroken
    obtain ⟨key, cutKey, isKey⟩ := TypeText.lexes_propertyKey unbroken
    exact ⟨key, isKey, TypeText.lexes_memberText cutKey required cut⟩

/-- A key in the constant of an enumeration is read with the value behind it. -/
theorem saysFirst_entry_iff {s : String} :
    SaysFirst s ((propertyKey s ++ ": " ++ literal s).toList) [.mark .colon, .literal s] ↔
      isUnbroken s = true := by
  constructor
  · rintro ⟨key, isKey, cut⟩
    exact TypeText.isUnbroken_of_lexes isKey cut
  · intro unbroken
    obtain ⟨key, cutKey, isKey⟩ := TypeText.lexes_propertyKey unbroken
    have value : Lexes (':' :: ' ' :: (literal s).toList) [.mark .colon, .literal s] :=
      (TypeText.lexes_literal unbroken).blank.mark .colon
    have entry := cutKey.append value (TypeText.stops_cons (by decide))
    refine ⟨key, isKey, ?_⟩
    simpa using entry

/-- A record has a member for each of its properties. -/
theorem infix_text_of_mem_properties {g : Graph} {v : Value} {p s : String} {r : Resolved}
    (record : Schema.IsRecord g v) (success : Schema.resolve g v p = .ok r) {w : Value}
    (member : (.text s, w) ∈ Schema.properties g v) :
    ∃ required type, (Schema.memberText (propertyKey s) required type).toList <:+: r.text.toList := by
  obtain ⟨required, types, -, related, text, -⟩ := record.resolved success
  obtain ⟨type, zipped⟩ := Graph.exists_mem_zip related.length_eq member
  have named : (Scalar.text s).display = s := rfl
  have among : Schema.memberText (propertyKey (Scalar.text s).display)
      (required.any (Scalar.text s).same) type ∈
        Schema.memberTexts required (Schema.properties g v) types := by
    rw [Schema.memberTexts, ← List.map_uncurry_zip_eq_zipWith]
    exact List.mem_map.mpr ⟨_, zipped, rfl⟩
  rw [named] at among
  refine ⟨required.any (Scalar.text s).same, type, ?_⟩
  rw [text, String.toList_append, Schema.toList_recordText]
  exact ((Text.infix_joinWith among).trans ⟨['\x7b'], ['\x7d'], rfl⟩).trans (List.prefix_append _ _).isInfix

/-- The constant of an enumeration has an entry for each value. -/
theorem infix_enumerationText {name s : String} {values : List String} (member : s ∈ values) :
    ("  " ++ (propertyKey s ++ ": " ++ literal s) ++ " as " ++ name ++ ",").toList <:+:
      (enumerationText name values).toList := by
  rw [enumerationText, Text.lines]
  refine Text.infix_joinWith ?_
  rw [List.mem_append, List.mem_append, List.mem_map]
  refine .inl (.inr ⟨s, member, ?_⟩)
  simp only [String.append_assoc]

/-- A text is written as a literal that is one token and says the text, wherever it stands, if it has no
line break, and as nothing that can be read if it has one. Its key is the text itself if it is a word, and
else its literal; only a word with a line feed behind it is its own key, too. Wherever a key stands, in a
record before the type of the property or in the constant of an enumeration before the value, it says the
text exactly if the text has no line break. -/
theorem keys_and_literals_are_tokens_iff (s : String) :
    (∀ rest, lex ((literal s).toList ++ rest) =
      if isUnbroken s then (lex rest).map (.literal s :: ·) else none) ∧
    (isWord s = true ∧ propertyKey s = s ∨
      isWord s = false ∧ (propertyKey s = literal s ∨
        ∃ w, isWord w = true ∧ s = w ++ "\n" ∧ propertyKey s = s ∧ Lexes s.toList [.name w])) ∧
    (∀ (g : Graph) (v w : Value) p r, Schema.IsRecord g v → Schema.resolve g v p = .ok r →
      (.text s, w) ∈ Schema.properties g v →
        ∃ required type, (Schema.memberText (propertyKey s) required type).toList <:+: r.text.toList) ∧
    (∀ required type ts, Lexes type.toList ts →
      (SaysFirst s (Schema.memberText (propertyKey s) required type).toList
        ((if required then [] else [.mark .question]) ++ .mark .colon :: ts) ↔ isUnbroken s = true)) ∧
    (∀ name values, s ∈ values →
      ("  " ++ (propertyKey s ++ ": " ++ literal s) ++ " as " ++ name ++ ",").toList <:+:
        (enumerationText name values).toList) ∧
    (SaysFirst s (propertyKey s ++ ": " ++ literal s).toList [.mark .colon, .literal s] ↔
      isUnbroken s = true) :=
  ⟨TypeText.lex_literal_append s, TypeText.propertyKey_eq s,
    fun _ _ _ _ _ record success member => infix_text_of_mem_properties record success member,
    fun required _ _ cut => saysFirst_memberText_iff cut required,
    fun _ _ member => infix_enumerationText member, saysFirst_entry_iff⟩

/-- Pets with a name that has a quote in it, and pets with line breaks in the name of a property and in the
value of it. -/
def namedPets : Graph :=
  ⟨#[.mapping [(.text "type", .text "object"), (.text "properties", .node 1)],
     .mapping [(.text "pet's name", .node 2)],
     .mapping [(.text "type", .text "string")],
     .mapping [(.text "type", .text "object"), (.text "properties", .node 4)],
     .mapping [(.text "id\n", .node 5)],
     .mapping [(.text "type", .text "string"), (.text "enum", .node 6)],
     .list [.text "a\nb"]]⟩

theorem quoted_name_is_one_token :
    isUnbroken "pet's name" = true ∧ isWord "pet's name" = false ∧
      propertyKey "pet's name" = "'pet\\'s name'" ∧
      lex (propertyKey "pet's name").toList = some [.literal "pet's name"] ∧
      Schema.resolve namedPets (.node 0) "#" = .ok ⟨"\x7b'pet\\'s name'?: string\x7d", [], []⟩ ∧
      ∃ required type,
        (Schema.memberText (propertyKey "pet's name") required type).toList <:+:
          ("\x7b'pet\\'s name'?: string\x7d").toList ∧
        SaysFirst "pet's name" (Schema.memberText (propertyKey "pet's name") required "string").toList
          ((if required then [] else [.mark .question]) ++ [.mark .colon, .name "string"]) := by
  obtain ⟨tokens, -, records, members, -, -⟩ := keys_and_literals_are_tokens_iff "pet's name"
  have resolved : Schema.resolve namedPets (.node 0) "#" =
      .ok ⟨"\x7b'pet\\'s name'?: string\x7d", [], []⟩ := by
    with_unfolding_all rfl
  have key : propertyKey "pet's name" = literal "pet's name" := by decide +kernel
  have record : Schema.IsRecord namedPets (.node 0) :=
    ⟨by decide, .inr (by decide), fun c => by cases c <;> decide, by decide⟩
  obtain ⟨required, type, inside⟩ := records namedPets (.node 0) (.node 2) "#" _ record resolved (by decide)
  refine ⟨by decide, by decide, by decide +kernel, ?_, resolved, required, type, inside, ?_⟩
  · have alone := tokens []
    rw [List.append_nil, lex, if_pos (by decide)] at alone
    rw [key, alone]
    rfl
  · exact (members required "string" [.name "string"] (TypeText.lexes_word (by decide))).mpr (by decide)

/-- A line break is written into a literal as it is. One behind a word is taken for a part of it. -/
theorem line_breaks_are_written_raw :
    literal "a\nb" = "'a\nb'" ∧ lex (literal "a\nb").toList = none ∧
      isWord "id\n" = false ∧ propertyKey "id\n" = "id\n" ∧
      lex (propertyKey "id\n").toList = some [.name "id"] ∧
      Schema.resolve namedPets (.node 3) "#" = .ok ⟨"\x7bid\n?: 'a\nb'\x7d", [], []⟩ := by
  refine ⟨by decide +kernel, ?_, by decide, by decide +kernel, ?_, ?_⟩
  · with_unfolding_all rfl
  · with_unfolding_all rfl
  · with_unfolding_all rfl

end Model

end TypedClient
