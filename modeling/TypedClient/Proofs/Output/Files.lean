import Mathlib.Data.List.Nodup
import TypedClient.Output
import TypedClient.Proofs.Naming.Letters
import TypedClient.Proofs.Text.Lists

/-!
# Files of models

Each model of a client has a file that in the end holds the text of a model of this name, and the
index exports it. The file of the index is never that of a model: no name of a type begins in lower
case.
-/
namespace TypedClient.Output

theorem pascalCase_append_ne_index (s : String) {ending : String} (other : ending ≠ "index") :
    Naming.pascalCase s ++ ending ≠ "index" := by
  intro same
  have letters := congrArg String.toList same
  rw [String.toList_append] at letters
  cases start : (Naming.pascalCase s).toList with
  | nil =>
    rw [start, List.nil_append] at letters
    exact other (String.toList_inj.mp letters)
  | cons c rest =>
    rw [start, List.cons_append] at letters
    have lower : c = 'i' := (List.cons.inj letters).1
    have upper := Naming.not_isLower_of_pascalCase start
    rw [lower] at upper
    exact absurd upper (by decide)

theorem name_eq_of_modelFile {m : Model} {name : String}
    (same : modelFile m = "models/" ++ name ++ ".ts") : m.name = name := by
  have letters := congrArg String.toList same
  unfold modelFile at letters
  simp only [String.toList_append, List.append_cancel_left_eq, List.append_cancel_right_eq]
    at letters
  exact String.toList_inj.mp letters

/-- The file of a model holds the last model of its name. -/
theorem finalText_modelFile {c : Client} {m : Model} (plain : m.name ≠ "index") :
    finalText (files c) (modelFile m) =
      (c.models.reverse.find? fun m' => m'.name = m.name).map model := by
  have index : ¬("models/index.ts" = modelFile m) := fun same =>
    plain (name_eq_of_modelFile same.symm)
  have interface : ¬("api.ts" = modelFile m) := by
    intro same
    have letters := congrArg String.toList same
    unfold modelFile at letters
    simp only [String.toList_append] at letters
    exact absurd (List.cons.inj letters).1 (by decide)
  have same : ∀ m', decide (modelFile m' = modelFile m) = decide (m'.name = m.name) := fun m' =>
    decide_eq_decide.mpr ⟨name_eq_of_modelFile, fun named => by rw [modelFile, named, modelFile]⟩
  rw [finalText, files, List.reverse_append, List.reverse_singleton, List.singleton_append,
    List.find?_cons_of_neg (by simpa using index), List.reverse_append, List.reverse_singleton,
    List.find?_append, List.find?_singleton, if_neg (by simpa using interface), Option.or_none,
    ← List.map_reverse, List.find?_map, Option.map_map]
  simp only [Function.comp_def, same]

/-- What is written of a model stays, unless another model of the same name is written later. -/
theorem exists_finalText {c : Client} {m : Model} (member : m ∈ c.models)
    (plain : m.name ≠ "index") :
    ∃ m' ∈ c.models, m'.name = m.name ∧
      finalText (files c) (modelFile m) = some (model m') := by
  rw [finalText_modelFile plain]
  cases found : c.models.reverse.find? fun m' => m'.name = m.name with
  | none => exact absurd (List.find?_eq_none.mp found m (List.mem_reverse.mpr member)) (by simp)
  | some m' =>
    have same := List.find?_some found
    exact ⟨m', List.mem_reverse.mp (List.mem_of_find?_eq_some found), of_decide_eq_true same, rfl⟩

/-- Where the names of models differ, the file of each model holds its text. -/
theorem finalText_of_nodup {c : Client} (distinct : (c.models.map (·.name)).Nodup) {m : Model}
    (member : m ∈ c.models) (plain : m.name ≠ "index") :
    finalText (files c) (modelFile m) = some (model m) := by
  obtain ⟨m', member', same, text⟩ := exists_finalText member plain
  rw [text, List.inj_on_of_nodup_map distinct member' member same]

/-- The index is the last file that is written. -/
theorem finalText_index (c : Client) :
    finalText (files c) "models/index.ts" = some (index c.models) := by
  rw [finalText, files, List.reverse_append, List.reverse_singleton, List.singleton_append,
    List.find?_cons_of_pos (by simp)]
  rfl

theorem infix_index {models : List Model} {m : Model} (member : m ∈ models) :
    ("export * from './" ++ m.name ++ "'").toList <:+: (index models).toList := by
  generalize line : "export * from './" ++ m.name ++ "'" = text
  unfold index
  rw [String.toList_append]
  apply List.infix_append_of_infix_left
  apply Text.infix_joinWith
  apply List.mem_append_right
  exact List.mem_map.mpr ⟨m, member, line⟩

end TypedClient.Output
