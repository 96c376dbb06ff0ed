import TypedClient.Model
import TypedClient.Proofs.Naming.Letters
import TypedClient.Proofs.Schema.Record
import TypedClient.Proofs.TypeText.Pieces

/-!
# Declarations of enumerations

An enumeration is declared as the union of its values and as a constant that maps each value to itself.
Both are read back from the text of the declaration by cutting it at the marks that stand outside of
literals, and by undoing the escapes of the literals. The union is that of the values in their order,
with null behind them if the schema is nullable, and the constant has an entry for each of the values in
the same order. So no value is mistaken for a mark or an escape, whatever it imitates.
-/
namespace TypedClient

namespace TypeText.Separator

/-- Between the members of a union. -/
def bar : Separator := ⟨' ', ['|', ' '], by decide⟩

/-- Behind a declaration. -/
def semicolon : Separator := ⟨';', [], by decide⟩

/-- Behind an entry of a constant. -/
def comma : Separator := ⟨',', [], by decide⟩

/-- Between the key of an entry and its value. -/
def colon : Separator := ⟨':', [' '], by decide⟩

/-- Between a value and the type that it is taken as. -/
def assertion : Separator := ⟨' ', ['a', 's', ' '], by decide⟩

end TypeText.Separator

namespace Model

open TypeText (Separator Sealed cut literal ofLiteral? propertyKey)

/-! ### Reading a declaration -/

/-- A member of the union that an enumeration is declared as. -/
inductive Choice where
  | literal (s : String)
  | null
  deriving DecidableEq, Repr

def Choice.read? (piece : List Char) : Option Choice :=
  if piece = "null".toList then some .null else (ofLiteral? piece).map .literal

def readUnion (text : List Char) : Option (List Choice) := (cut .bar .plain text).mapM Choice.read?

/-- What a key says: itself unless it is a literal. -/
def readKey (key : List Char) : Option String :=
  if key.head? = some '\'' then ofLiteral? key else some (String.ofList key)

/-- The key and the value of an entry of the constant with a name. -/
def readEntry (name : String) (entry : List Char) : Option (String × String) := do
  let entry ← Text.dropStart? "\n  ".toList entry
  match cut .colon .plain entry with
  | [key, value] =>
    match cut .assertion .plain value with
    | [said, type] => if type = name.toList then return (← readKey key, ← ofLiteral? said) else none
    | _ => none
  | _ => none

def readConstant (name : String) (text : List Char) : Option (List (String × String)) := do
  let body ← Text.dropStart? ("\n\nexport const " ++ name ++ " = \x7b").toList text
  let pieces := cut .comma .plain body
  if pieces.getLast? = some "\n\x7d".toList then pieces.dropLast.mapM (readEntry name) else none

/-- The members of the union and the entries of the constant that an enumeration is declared as. -/
def readEnumeration (name declaration : String) :
    Option (List Choice × List (String × String)) := do
  let rest ← Text.dropStart? ("export type " ++ name ++ " = ").toList declaration.toList
  match cut .semicolon .plain rest with
  | [union, constant, []] => return (← readUnion union, ← readConstant name constant)
  | _ => none

/-! ### Reading what was written -/

theorem mapM_map_eq_some {α β γ : Type} {f : α → β} {g : β → Option γ} {h : α → γ}
    (each : ∀ a, g (f a) = some (h a)) (l : List α) : (l.map f).mapM g = some (l.map h) := by
  induction l with
  | nil => rfl
  | cons a l ih =>
    rw [List.map_cons, List.mapM_cons, each, ih]
    rfl

def Choice.text : Choice → String
  | .literal s => TypeText.literal s
  | .null => "null"

theorem Choice.read?_text (c : Choice) : read? c.text.toList = some c := by
  cases c with
  | null => rfl
  | literal s =>
    have other : (TypeText.literal s).toList ≠ "null".toList := by
      rw [TypeText.toList_literal]
      exact fun same => absurd (List.cons.inj same).1 (by decide)
    rw [read?, text, if_neg other, TypeText.ofLiteral?_literal]
    rfl

theorem Choice.isSealed_text {c : Char} (other : c ∉ "null".toList) (choice : Choice) :
    Sealed c choice.text.toList := by
  cases choice with
  | literal s => exact .of_literal s
  | null => exact .of_notMem other (by decide)

/-- The union of choices is read as these. -/
theorem readUnion_joinWith {cs : List Choice} (given : cs ≠ []) :
    readUnion (Text.joinWith " | " (cs.map Choice.text)).toList = some cs := by
  have pieces : cut .bar .plain (Text.joinWith " | " (cs.map Choice.text)).toList =
      cs.map fun c => c.text.toList := by
    rw [TypeText.cut_joinWith rfl (by simpa using given), List.map_map]
    · rfl
    · intro t member
      obtain ⟨c, -, rfl⟩ := List.mem_map.mp member
      exact c.isSealed_text (by decide)
  rw [readUnion, pieces, mapM_map_eq_some fun c => c.read?_text, List.map_id']

section Keys

variable {value : String}

theorem isSealed_propertyKey {c : Char} (mark : Naming.isIdentifierChar c = false) (other : c ≠ '\n') :
    Sealed c (propertyKey value).toList := by
  unfold propertyKey
  split
  · next identifier =>
    have bare := TypeText.isIdentifierChar_or_break identifier
    refine .of_notMem (fun member => ?_) fun member => ?_
    · rcases bare c member with letter | same
      · exact absurd letter (Bool.eq_false_iff.mp mark)
      · exact other same
    · rcases bare _ member with letter | same
      · exact absurd letter (by decide)
      · exact absurd same (by decide)
  · exact .of_literal value

theorem readKey_propertyKey : readKey (propertyKey value).toList = some value := by
  unfold propertyKey
  split
  · next identifier =>
    have bare : value.toList.head? ≠ some '\'' := fun quoted => by
      rcases TypeText.isIdentifierChar_or_break identifier _ (List.mem_of_head? quoted) with letter | same
      · exact absurd letter (by decide)
      · exact absurd same (by decide)
    rw [readKey, if_neg bare, String.ofList_toList]
  · have quoted : (literal value).toList.head? = some '\'' := by rw [TypeText.toList_literal, List.head?_cons]
    rw [readKey, if_pos quoted, TypeText.ofLiteral?_literal]

end Keys

section Declaration

variable {name : String} (letters : ∀ c ∈ name.toList, c.isAlphanum)

/-- An entry of the constant with a name, from the line break before it. -/
def entryText (name value : String) : List Char :=
  "\n  ".toList ++ ((propertyKey value).toList ++ Separator.colon.text ++
    ((literal value).toList ++ Separator.assertion.text ++ name.toList))

/-- The entries of the constant with a name, up to the brace behind them. -/
def bodyText (name : String) (values : List String) : List Char :=
  values.flatMap (fun v => entryText name v ++ Separator.comma.text) ++ "\n\x7d".toList

theorem toList_enumerationText (name : String) (values : List String) :
    (enumerationText name values).toList =
      ("export const " ++ name ++ " = \x7b").toList ++ bodyText name values ++ Separator.semicolon.text := by
  have line : ∀ v, "\n".toList ++ ("  " ++ propertyKey v ++ ": " ++ literal v ++ " as " ++ name ++
      ",").toList = entryText name v ++ Separator.comma.text := by
    intro v
    simp [entryText, Separator.colon, Separator.assertion, Separator.comma, Separator.text]
  rw [enumerationText, Text.lines, List.append_assoc, List.singleton_append, Text.toList_joinWith_cons,
    List.flatMap_append, List.flatMap_map, bodyText]
  simp only [line, List.append_assoc]
  rfl

include letters

theorem isSealed_name {c : Char} (mark : Naming.isIdentifierChar c = false) :
    Sealed c name.toList := by
  refine .of_notMem (fun member => ?_) fun member => ?_
  · have letter := letters c member
    simp only [Naming.isIdentifierChar, Naming.isIdentifierStart, Bool.or_eq_false_iff] at mark
    rw [Char.isAlphanum, mark.1.1.1, mark.2] at letter
    cases letter
  · exact absurd (letters _ member) (by decide)

/-- An entry has no mark outside of its literals but a colon and blanks. -/
theorem isSealed_entryText {c : Char} (mark : Naming.isIdentifierChar c = false)
    (other : c ∉ "\n  : as ".toList) (value : String) : Sealed c (entryText name value) := by
  have plain : ∀ a : List Char, a ⊆ "\n  : as ".toList → Sealed c a := fun a inside =>
    .of_notMem (fun member => other (inside member)) fun member => absurd (inside member) (by decide)
  have key : Sealed c (propertyKey value).toList := by
    refine isSealed_propertyKey mark fun same => other ?_
    rw [same]
    decide
  exact (plain _ (by decide)).append ((key.append (plain _ (by decide))).append
    (((Sealed.of_literal value).append (plain _ (by decide))).append (isSealed_name letters mark)))

theorem readEntry_entryText (value : String) :
    readEntry name (entryText name value) = some (value, value) := by
  have front : Text.dropStart? "\n  ".toList (entryText name value) = some _ :=
    Text.dropStart?_eq_some_iff.mpr rfl
  have typed : Sealed Separator.colon.first ((literal value).toList ++ Separator.assertion.text ++ name.toList) :=
    ((Sealed.of_literal value).append (.of_notMem (by decide) (by decide))).append
      (isSealed_name letters (by decide))
  have entry : cut .colon .plain ((propertyKey value).toList ++ Separator.colon.text ++
      ((literal value).toList ++ Separator.assertion.text ++ name.toList)) =
      [(propertyKey value).toList, (literal value).toList ++ Separator.assertion.text ++ name.toList] := by
    rw [TypeText.cut_piece _ (isSealed_propertyKey (by decide) (by decide)), TypeText.cut_single typed]
  have said : cut .assertion .plain ((literal value).toList ++ Separator.assertion.text ++ name.toList) =
      [(literal value).toList, name.toList] := by
    rw [TypeText.cut_piece _ (.of_literal value), TypeText.cut_single (isSealed_name letters (by decide))]
  rw [readEntry, front]
  simp only [Option.bind_eq_bind, Option.bind_some, entry, said, if_true, readKey_propertyKey,
    TypeText.ofLiteral?_literal]
  rfl

theorem readConstant_bodyText (values : List String) :
    readConstant name (("\n\nexport const " ++ name ++ " = \x7b").toList ++ bodyText name values) =
      some (values.map fun s => (s, s)) := by
  have front : Text.dropStart? ("\n\nexport const " ++ name ++ " = \x7b").toList
      (("\n\nexport const " ++ name ++ " = \x7b").toList ++ bodyText name values) =
      some (bodyText name values) := Text.dropStart?_eq_some_iff.mpr rfl
  have pieces : cut .comma .plain (bodyText name values) =
      values.map (entryText name) ++ ["\n\x7d".toList] := by
    rw [bodyText, TypeText.cut_flatMap _ fun v _ => isSealed_entryText letters (by decide) (by decide) v,
      TypeText.cut_single (.of_notMem (by decide) (by decide))]
  rw [readConstant, front]
  simp only [Option.bind_eq_bind, Option.bind_some, pieces, List.getLast?_concat, if_true,
    List.dropLast_concat]
  exact mapM_map_eq_some (readEntry_entryText letters) values

/-- A declaration that is written for choices and values is read as these. -/
theorem readEnumeration_declaration {cs : List Choice} (given : cs ≠ []) (values : List String) :
    readEnumeration name (aliasText name (Text.joinWith " | " (cs.map Choice.text)) ++ "\n\n" ++
      enumerationText name values) = some (cs, values.map fun s => (s, s)) := by
  have front : Text.dropStart? ("export type " ++ name ++ " = ").toList
      (aliasText name (Text.joinWith " | " (cs.map Choice.text)) ++ "\n\n" ++
        enumerationText name values).toList =
      some ((Text.joinWith " | " (cs.map Choice.text)).toList ++ Separator.semicolon.text ++
        (("\n\nexport const " ++ name ++ " = \x7b").toList ++ bodyText name values ++
          Separator.semicolon.text ++ [])) := by
    rw [Text.dropStart?_eq_some_iff]
    simp [aliasText, toList_enumerationText, Separator.semicolon, Separator.text]
  have union : Sealed Separator.semicolon.first (Text.joinWith " | " (cs.map Choice.text)).toList := by
    refine .joinWith (.of_notMem (by decide) (by decide)) fun t member => ?_
    obtain ⟨c, -, rfl⟩ := List.mem_map.mp member
    exact c.isSealed_text (by decide)
  have body : Sealed Separator.semicolon.first (bodyText name values) :=
    (Sealed.flatMap fun v _ => (isSealed_entryText letters (by decide) (by decide) v).append
      (.of_notMem (by decide) (by decide))).append (.of_notMem (by decide) (by decide))
  have constant : Sealed Separator.semicolon.first (("\n\nexport const " ++ name ++ " = \x7b").toList ++
      bodyText name values) := by
    simp only [String.toList_append]
    exact (((Sealed.of_notMem (by decide) (by decide)).append (isSealed_name letters (by decide))).append
      (.of_notMem (by decide) (by decide))).append body
  rw [readEnumeration, front]
  simp only [Option.bind_eq_bind, Option.bind_some]
  rw [TypeText.cut_piece _ union, TypeText.cut_piece _ constant, TypeText.cut_nil]
  simp only [readUnion_joinWith given, readConstant_bodyText letters, Option.bind_some]
  rfl

end Declaration

/-! ### The model of an enumeration -/

section Schema

variable {g : Graph} {v : Value} {vs : List Value}

/-- The values of an enumeration as texts. -/
def valuesOf (g : Graph) (vs : List Value) : List String := (vs.filter fun w => w ≠ .null).map g.display

/-- What the union for a schema with these values has as its members. -/
def choicesOf (g : Graph) (v : Value) (values : List String) : List Choice :=
  values.map .literal ++ if Schema.isNullable g v then [.null] else []

theorem enumeration_eq (listed : g.optionalElements ((g.fields v).field "enum") = .ok vs)
    (texts : ∀ w ∈ vs, w ≠ .null → g.hasText w = true) :
    Schema.enumeration g (g.fields v) = .ok (valuesOf g vs) := by
  have all : (vs.filter fun w => w ≠ .null).all g.hasText = true := by
    rw [List.all_eq_true]
    intro w member
    obtain ⟨listed, given⟩ := List.mem_filter.mp member
    exact texts w listed (of_decide_eq_true given)
  rw [Schema.enumeration, listed, Except.ok_bind, Schema.mapM_textOf, if_pos all]
  rfl

theorem joinWith_choicesOf {values : List String} (given : values ≠ []) :
    Text.joinWith " | " ((choicesOf g v values).map Choice.text) =
      Text.joinWith " | " (values.map literal) ++ Schema.nullText g (g.fields v) := by
  have texts : (values.map Choice.literal).map Choice.text = values.map literal := by
    rw [List.map_map]
    rfl
  rw [choicesOf, Schema.isNullable, Schema.nullText, List.map_append, texts]
  split
  · exact Text.joinWith_concat (by simpa using given) _
  · rw [List.map_nil, List.append_nil, String.append_empty]

theorem not_isInterfaceCandidate_of_isString (string : Schema.IsString g v) :
    isInterfaceCandidate g v = false := by
  obtain ⟨t, member, type⟩ := string.type
  have other : ∀ t ∈ Schema.stringTypes, (Value.text t).isText "object" = false := by decide
  have given : Value.text t ≠ .null := nofun
  simp [isInterfaceCandidate, string.entries?, type, other t member, given]

theorem ofSchema_of_isString (string : Schema.IsString g v) {values : List String}
    (enum : Schema.enumeration g (g.fields v) = .ok values) (given : values ≠ []) (name : String) :
    ofSchema g name v = .ok ⟨Naming.pascalCase name,
      aliasText (Naming.pascalCase name) (Text.joinWith " | " ((choicesOf g v values).map Choice.text)) ++
        "\n\n" ++ enumerationText (Naming.pascalCase name) values, []⟩ := by
  have isEnumeration : (⟨Text.joinWith " | " (values.map literal) ++ Schema.nullText g (g.fields v),
      [], values⟩ : Resolved).isEnumeration = true := by
    simpa [Resolved.isEnumeration] using given
  rw [ofSchema, string.resolve_enumeration enum given, joinWith_choicesOf given, Except.ok_bind,
    not_isInterfaceCandidate_of_isString string, Bool.false_and]
  simp only [isEnumeration, Bool.false_eq_true, if_false, if_true]
  rfl

/-- A schema of a string kind that enumerates values which have texts, and not null alone, has a model.
The union that it declares is cut at the bars outside of its literals into these texts in their order,
and then null exactly if the schema is nullable; its constant has an entry for each of them in the same
order, whose key and whose value say the text. -/
theorem enumeration_reads_back (string : Schema.IsString g v)
    (listed : g.optionalElements ((g.fields v).field "enum") = .ok vs)
    (texts : ∀ w ∈ vs, w ≠ .null → g.hasText w = true) (present : ∃ w ∈ vs, w ≠ .null) (name : String) :
    ∃ m, ofSchema g name v = .ok m ∧ m.name = Naming.pascalCase name ∧
      readEnumeration m.name m.declaration =
        some ((valuesOf g vs).map .literal ++ (if Schema.isNullable g v then [.null] else []),
          (valuesOf g vs).map fun s => (s, s)) := by
  have given : valuesOf g vs ≠ [] := by
    obtain ⟨w, member, other⟩ := present
    exact List.ne_nil_of_mem (List.mem_map_of_mem (List.mem_filter.mpr ⟨member, decide_eq_true other⟩))
  have choices : choicesOf g v (valuesOf g vs) ≠ [] := by
    rw [choicesOf]
    simp [given]
  refine ⟨_, ofSchema_of_isString string (enumeration_eq listed texts) given name, rfl, ?_⟩
  exact readEnumeration_declaration (fun _ => Naming.isAlphanum_of_mem_pascalCase _) choices _

end Schema

/-- Moods whose names imitate quotes, escapes, bars and the end of a declaration. -/
def moodGraph : Graph :=
  ⟨#[.mapping [(.text "type", .text "string"), (.text "nullable", .scalar (.bool true)),
       (.text "enum", .node 1)],
     .list [.text "it's", .text "so | so", .null, .text "back\\", .text "'; two\nlines", .scalar (.int 7)]]⟩

theorem moods_read_back :
    ∃ m, ofSchema moodGraph "mood" (.node 0) = .ok m ∧ m.name = "Mood" ∧
      readEnumeration "Mood" m.declaration =
        some ([.literal "it's", .literal "so | so", .literal "back\\", .literal "'; two\nlines",
            .literal "7", .null],
          [("it's", "it's"), ("so | so", "so | so"), ("back\\", "back\\"),
            ("'; two\nlines", "'; two\nlines"), ("7", "7")]) := by
  have string : Schema.IsString moodGraph (.node 0) :=
    ⟨by decide, ⟨"string", by decide, by decide⟩, by decide⟩
  have listed : moodGraph.optionalElements ((moodGraph.fields (.node 0)).field "enum") =
      .ok [.text "it's", .text "so | so", .null, .text "back\\", .text "'; two\nlines", .scalar (.int 7)] := by
    rfl
  obtain ⟨m, success, named, reads⟩ := enumeration_reads_back string listed (by decide +kernel)
    ⟨_, List.mem_cons_self, nofun⟩ "mood"
  have mood : Naming.pascalCase "mood" = "Mood" := by decide +kernel
  rw [mood] at named
  rw [named] at reads
  exact ⟨m, success, named, reads.trans (by decide +kernel)⟩

end Model

end TypedClient
