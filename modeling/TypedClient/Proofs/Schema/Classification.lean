import TypedClient.Proofs.Naming.Letters
import TypedClient.Proofs.Schema.Outline
import TypedClient.Proofs.Text.Lists
import TypedClient.Proofs.TypeText.Scan

/-!
# Classification by text

What the scans find out about the text of an outline is what its structure says: it is taken for a
union or an intersection exactly if it is one at the top, and for one record or map exactly if it is
one. Names of properties and values of enumerations may be any texts.
-/
namespace TypedClient

namespace TypeText

open Schema (Outline)

theorem isOrdinary_of_isAlphanum {c : Char} (letter : c.isAlphanum) : isOrdinary c :=
  Naming.of_isAlphanum (fun c => isOrdinary c) (by decide) letter

theorem isOrdinary_of_isIdentifierChar {c : Char} (letter : Naming.isIdentifierChar c) :
    isOrdinary c := by
  simp only [Naming.isIdentifierChar, Naming.isIdentifierStart, Bool.or_eq_true,
    decide_eq_true_eq] at letter
  rcases letter with ((letter | rfl) | rfl) | digit
  · exact isOrdinary_of_isAlphanum (by simp [Char.isAlphanum, letter])
  · rfl
  · rfl
  · exact isOrdinary_of_isAlphanum (by simp [Char.isAlphanum, digit])

/-- An identifier holds identifier characters and perhaps a line feed that was overlooked. -/
theorem isIdentifierChar_or_break {s : String} (identifier : Naming.isIdentifier s) :
    ∀ c ∈ s.toList, Naming.isIdentifierChar c ∨ c = '\n' := by
  have kept : ∀ c ∈ Text.dropFinalBreak s.toList, Naming.isIdentifierChar c := by
    unfold Naming.isIdentifier at identifier
    split at identifier
    · cases identifier
    · next d rest same =>
      simp only [Bool.and_eq_true, List.all_eq_true] at identifier
      rw [same]
      intro c hc
      rcases List.mem_cons.mp hc with rfl | hc
      · simp [Naming.isIdentifierChar, identifier.1]
      · exact identifier.2 c hc
  unfold Text.dropFinalBreak at kept
  split at kept
  · next final =>
    obtain ⟨letters, same⟩ := List.getLast?_eq_some_iff.mp final
    rw [same, List.dropLast_concat] at kept
    intro c hc
    rw [same, List.mem_append] at hc
    rcases hc with hc | hc
    · exact .inl (kept c hc)
    · exact .inr (by simpa using hc)
  · exact fun c hc => .inl (kept c hc)

theorem balanced_propertyKey (name : String) : Balanced (propertyKey name).toList := by
  unfold propertyKey
  split
  · next identifier =>
    refine balanced_of_isOrdinary fun c hc => ?_
    rcases isIdentifierChar_or_break identifier c hc with letter | rfl
    · exact isOrdinary_of_isIdentifierChar letter
    · rfl
  · exact balanced_literal name

theorem balanced_typeName (r : Reference) : Balanced r.typeName.toList :=
  balanced_of_isOrdinary fun c hc => isOrdinary_of_isAlphanum (r.isAlphanum_of_mem_typeName c hc)

theorem hides_typeName (r : Reference) : Hides {} r.typeName.toList :=
  hides_of_no_operator (fun c hc => Naming.of_isAlphanum (fun c => isOperator c = false) (by decide)
    (r.isAlphanum_of_mem_typeName c hc)) {}

theorem balanced_joinWith {separator : String} {texts : List String}
    (hSeparator : Balanced separator.toList) (each : ∀ t ∈ texts, Balanced t.toList) :
    Balanced (Text.joinWith separator texts).toList := by
  cases texts with
  | nil => exact balanced_nil
  | cons t texts =>
    rw [Text.toList_joinWith_cons]
    refine (each t (by simp)).append (Balanced.flatMap fun u hu => ?_)
    exact hSeparator.append (each u (by simp [hu]))

theorem hides_plain {text : List Char} (plain : text.all (fun c => !isOperator c) = true)
    (s : Scan) : Hides s text :=
  hides_of_no_operator (fun c hc => by simpa using List.all_eq_true.mp plain c hc) s

/-- A text of ordinary characters, shown by looking at each. -/
theorem balanced_ordinary {s : String} (ordinary : s.toList.all isOrdinary = true) :
    Balanced s.toList :=
  balanced_of_isOrdinary (List.all_eq_true.mp ordinary)

theorem balanced_memberText {name type : String} (balanced : Balanced type.toList)
    (required : Bool) : Balanced (Schema.memberText (propertyKey name) required type).toList := by
  have mark : Balanced (if required then "" else "?").toList := by
    cases required
    · exact balanced_ordinary (by decide)
    · exact balanced_nil
  simp only [Schema.memberText, String.toList_append]
  exact (((balanced_propertyKey name).append mark).append
    (balanced_ordinary (s := ": ") (by decide))).append balanced

theorem balanced_index {type : String} (balanced : Balanced type.toList) :
    Balanced ("[key: string]: " ++ type).toList := by
  have key : Balanced ("key: string").toList := balanced_ordinary (by decide)
  have index : Balanced ('[' :: ("key: string").toList ++ [']']) := key.bracket rfl rfl
  rw [String.toList_append]
  exact (index.append (balanced_ordinary (s := ": ") (by decide))).append balanced

theorem isRecord_of_head {text : String} (other : text.toList.head? ≠ some '\x7b') :
    isRecord text = false := by
  simp [isRecord, other]

theorem isRecord_of_last {text : String} (other : text.toList.getLast? ≠ some '\x7d') :
    isRecord text = false := by
  simp [isRecord, other]

theorem isRecord_of_isCompound {text : String} (compound : isCompound text = true) :
    isRecord text = false := by
  simp [isRecord, compound]

theorem isRecord_of_braces {text : String} {body : List Char}
    (braces : text.toList = '\x7b' :: body ++ ['\x7d']) (simple : isCompound text = false) :
    isRecord text = true := by
  rw [isRecord, braces, simple, List.getLast?_concat]
  rfl

end TypeText

namespace Schema

theorem toList_recordText (members : List String) :
    (recordText members).toList =
      '\x7b' :: (Text.joinWith "; " members).toList ++ ['\x7d'] := by
  simp [recordText]

theorem toList_mapText (type : String) :
    (mapText type).toList = '\x7b' :: ("[key: string]: " ++ type).toList ++ ['\x7d'] := by
  change ("\x7b[key: string]: " ++ type ++ "\x7d").toList = _
  simp

theorem toList_group (type : String) :
    ("(" ++ type ++ ")[]").toList = ('(' :: type.toList ++ [')']) ++ ['[', ']'] := by
  simp

namespace Outline

open TypeText

theorem balanced_members {members : List (Member Outline)}
    (each : ∀ m ∈ members, Balanced m.type.text.toList) :
    Balanced (Text.joinWith "; " (members.map fun m =>
      memberText (propertyKey m.name) m.required m.type.text)).toList := by
  refine balanced_joinWith (balanced_ordinary (by decide)) fun t ht => ?_
  obtain ⟨m, member, rfl⟩ := List.mem_map.mp ht
  exact balanced_memberText (each m member) m.required

/-- The text of every outline is balanced. -/
theorem balanced_text (o : Outline) : Balanced o.text.toList := by
  induction o with
  | any => simpa [text] using balanced_ordinary (s := "any") (by decide)
  | reference t =>
    simp only [text]
    cases Reference.parse? t with
    | none => exact balanced_nil
    | some r => exact balanced_typeName r
  | basic b =>
    simp only [text]
    cases b <;> exact balanced_ordinary (by decide)
  | enumeration first rest =>
    simp only [text]
    refine balanced_joinWith (balanced_ordinary (by decide)) fun t ht => ?_
    obtain ⟨value, -, rfl⟩ := List.mem_map.mp ht
    exact balanced_literal value
  | unwritable => simpa [text] using balanced_nil
  | arrayWithoutItems => simpa [text] using balanced_nil
  | array composed items ih =>
    have brackets : Balanced ['[', ']'] := balanced_nil.bracket rfl rfl
    simp only [text]
    split
    · rw [toList_group]
      exact (ih.bracket rfl rfl).append brackets
    · rw [String.toList_append]
      exact ih.append brackets
  | composition c first rest ihFirst ihRest =>
    simp only [text]
    refine balanced_joinWith (by cases c <;> exact balanced_ordinary (by decide)) fun t ht => ?_
    rcases List.mem_cons.mp ht with rfl | ht
    · exact ihFirst
    · obtain ⟨o, member, rfl⟩ := List.mem_map.mp ht
      exact ihRest o member
  | record members ih =>
    simp only [text]
    rw [toList_recordText]
    exact (balanced_members ih).bracket rfl rfl
  | map values ih =>
    simp only [text]
    rw [toList_mapText]
    exact (balanced_index ih).bracket rfl rfl
  | nullable o ih =>
    simp only [text]
    rw [String.toList_append]
    exact ih.append (balanced_ordinary (by decide))

/-- An outline that is no union or intersection at the top shows no operator there. -/
theorem hides_text (o : Outline) (simple : o.isCompound = false) : Hides {} o.text.toList := by
  induction o with
  | any =>
    simp only [text]
    exact hides_plain (by decide) _
  | reference t =>
    simp only [text]
    cases Reference.parse? t with
    | none => exact hides_nil _
    | some r => exact hides_typeName r
  | basic b =>
    simp only [text]
    cases b <;> exact hides_plain (by decide) _
  | enumeration first rest =>
    have single : rest = [] := by simpa [isCompound] using simple
    subst single
    simp only [text, List.map_cons, List.map_nil, Text.joinWith]
    exact hides_literal first
  | unwritable => simpa [text] using hides_nil {}
  | arrayWithoutItems => simpa [text] using hides_nil {}
  | array composed items ih =>
    simp only [text]
    split
    · rw [toList_group]
      have balanced : Balanced ('(' :: items.text.toList ++ [')']) :=
        items.balanced_text.bracket rfl rfl
      refine hides_append (hides_bracket rfl rfl items.balanced_text) ?_
      rw [balanced.settled 0]
      exact hides_plain (by decide) _
    · next plain =>
      rw [Bool.or_eq_true, not_or, Bool.not_eq_true, Bool.not_eq_true] at plain
      rw [String.toList_append]
      exact hides_append (ih plain.2) (hides_plain (by decide) _)
  | composition c first rest ihFirst _ =>
    simp only [isCompound, Bool.or_eq_false_iff, Bool.not_eq_false', List.isEmpty_iff] at simple
    obtain ⟨rfl, simple⟩ := simple
    simp only [text, List.map_nil, Text.joinWith]
    exact ihFirst simple
  | record members _ =>
    simp only [text]
    rw [toList_recordText]
    exact hides_bracket rfl rfl (balanced_members fun m _ => m.type.balanced_text)
  | map values _ =>
    simp only [text]
    rw [toList_mapText]
    exact hides_bracket rfl rfl (balanced_index values.balanced_text)
  | nullable o _ => cases simple

theorem isCompound_joinWith {c : Composition} {a b : String} {rest : List String}
    (balanced : Balanced a.toList) :
    TypeText.isCompound (Text.joinWith c.operator (a :: b :: rest)) = true := by
  rw [Text.joinWith]
  cases c
  · exact isCompound_append '&' rfl rfl balanced _
  · exact isCompound_append '|' rfl rfl balanced _
  · exact isCompound_append '|' rfl rfl balanced _

/-- What is taken for a union or an intersection is one at the top. -/
theorem isCompound_text (o : Outline) : TypeText.isCompound o.text = o.isCompound := by
  cases compound : o.isCompound with
  | false => exact isCompound_of_hides (hides_text o compound)
  | true =>
    induction o with
    | enumeration first rest =>
      cases rest with
      | nil => simp [isCompound] at compound
      | cons second rest =>
        simp only [text, List.map_cons]
        exact isCompound_joinWith (c := .oneOf) (balanced_literal first)
    | composition c first rest ihFirst _ =>
      simp only [text]
      cases rest with
      | nil => exact ihFirst (by simpa [isCompound] using compound)
      | cons second rest => exact isCompound_joinWith first.balanced_text
    | nullable o _ =>
      have spaced : TypeText.isCompound (o.text ++ " | " ++ "null") = true :=
        isCompound_append '|' rfl rfl o.balanced_text _
      simp only [text]
      rwa [String.append_assoc] at spaced
    | _ => simp [isCompound] at compound

/-- What is taken for a record or map is a single one. -/
theorem isRecord_text (o : Outline) : TypeText.isRecord o.text = o.isRecord := by
  induction o with
  | any =>
    simp only [text, isRecord]
    exact isRecord_of_head (by decide)
  | reference t =>
    simp only [text, isRecord]
    refine isRecord_of_head fun opens => ?_
    cases parsed : Reference.parse? t with
    | none => simp [parsed] at opens
    | some r =>
      simp only [parsed, Option.map_some, Option.getD_some] at opens
      exact absurd (r.isAlphanum_of_mem_typeName _ (List.mem_of_head? opens)) (by decide)
  | basic b =>
    simp only [text, isRecord]
    cases b <;> exact isRecord_of_head (by decide)
  | enumeration first rest =>
    simp only [text, isRecord, List.map_cons]
    refine isRecord_of_head fun opens => ?_
    rw [Text.toList_joinWith_cons, toList_literal] at opens
    cases opens
  | unwritable =>
    simp only [text, isRecord]
    exact isRecord_of_head (by decide)
  | arrayWithoutItems =>
    simp only [text, isRecord]
    exact isRecord_of_head (by decide)
  | array composed items _ =>
    simp only [text, isRecord]
    split
    · refine isRecord_of_last ?_
      rw [toList_group, List.getLast?_append]
      simp
    · refine isRecord_of_last ?_
      rw [String.toList_append, List.getLast?_append]
      simp
  | composition c first rest ihFirst _ =>
    cases rest with
    | nil =>
      simp only [text, isRecord, List.map_nil, Text.joinWith, List.isEmpty_nil, Bool.true_and]
      exact ihFirst
    | cons second rest =>
      refine isRecord_of_isCompound ?_
      rw [isCompound_text]
      rfl
  | record members _ =>
    have simple := isCompound_text (.record members)
    simp only [text] at simple ⊢
    exact isRecord_of_braces (toList_recordText _) simple
  | map values _ =>
    have simple := isCompound_text (.map values)
    simp only [text] at simple ⊢
    exact isRecord_of_braces (toList_mapText _) simple
  | nullable o _ =>
    refine isRecord_of_isCompound ?_
    rw [isCompound_text]
    rfl

theorem infix_text_bare (o : Outline) : o.bare.text.toList <:+: o.text.toList := by
  induction o with
  | nullable o ih =>
    refine List.IsInfix.trans ih ?_
    simp only [text, String.toList_append]
    exact (List.prefix_append _ _).isInfix
  | _ => exact List.infix_refl _

/-- What stands inside an outline stands in its text. -/
theorem infix_text_inner (o : Outline) :
    ∀ c ∈ o.inner, c.2.text.toList <:+: o.text.toList := by
  induction o with
  | array composed items _ =>
    simp only [inner, List.mem_singleton, forall_eq, text]
    split
    · rw [toList_group]
      exact ⟨['('], [')', '[', ']'], by simp⟩
    · rw [String.toList_append]
      exact (List.prefix_append _ _).isInfix
  | composition c first rest _ _ =>
    intro e he
    simp only [inner, List.mem_map, Prod.exists] at he
    obtain ⟨m, i, hm, rfl⟩ := he
    simp only [text]
    refine Text.infix_joinWith ?_
    rw [← List.map_cons]
    exact List.mem_map_of_mem (List.fst_mem_of_mem_zipIdx hm)
  | record members _ =>
    intro e he
    simp only [inner, List.mem_map] at he
    obtain ⟨m, hm, rfl⟩ := he
    simp only [text]
    rw [toList_recordText]
    have member : memberText (propertyKey m.name) m.required m.type.text ∈
        members.map fun m => memberText (propertyKey m.name) m.required m.type.text :=
      List.mem_map.mpr ⟨m, hm, rfl⟩
    refine List.IsInfix.trans ?_ ⟨['\x7b'], ['\x7d'], rfl⟩
    refine List.IsInfix.trans ?_ (Text.infix_joinWith member)
    simp only [memberText, String.toList_append]
    exact (List.suffix_append _ _).isInfix
  | map values _ =>
    simp only [inner, List.mem_singleton, forall_eq, text]
    rw [toList_mapText, String.toList_append]
    exact ⟨'\x7b' :: ("[key: string]: ").toList, ['\x7d'], by simp⟩
  | nullable o ih =>
    intro c hc
    refine (ih c hc).trans ?_
    simp only [text, String.toList_append]
    exact (List.prefix_append _ _).isInfix
  | _ => simp [inner]

/-- The text of every node that is visited stands in the text of the whole. -/
theorem infix_text_of_mem_visits {p : String} {o : Outline} {c : String × Outline}
    (visited : c ∈ o.visits p) : c.2.text.toList <:+: o.text.toList := by
  rw [visits_eq, List.mem_cons, List.mem_flatMap] at visited
  rcases visited with rfl | ⟨i, inside, deeper⟩
  · exact o.infix_text_bare
  · have smaller := o.sizeOf_lt_of_mem_inner i inside
    exact (infix_text_of_mem_visits deeper).trans (o.infix_text_inner i inside)
termination_by sizeOf o

end Outline

end Schema

end TypedClient
