import Mathlib.Data.List.TakeWhile
import TypedClient.Client
import TypedClient.Proofs.Document.Pointer

/-!
# Paths of findings

A report gives the place of a finding as a path, in which the keys and numbers on the way are escaped and
joined. Read as a pointer the path gives them back as texts, however many slashes and tildes they have:
every finding is led to where it lies, and no two places share a path. The root alone is an exception. Its
path is that of the value under the key without a name, and not the pointer of the root.
-/
namespace TypedClient

namespace Pointer

/-- What the path of a place is read as: the root is taken for the key without a name. -/
def shown : List String → List String
  | [] => [""]
  | first :: rest => first :: rest

theorem joinWith_eq_written (first : String) (rest : List String) :
    "/" ++ Text.joinWith "/" (first :: rest) = written (first :: rest) := by
  induction rest generalizing first with
  | nil => rw [Text.joinWith, written, written, String.append_empty]
  | cons next rest ih => rw [Text.joinWith, written, ← ih, String.append_assoc]

theorem ofSegments_eq_written (place : List String) :
    ofSegments place = "#" ++ written ((shown place).map escape) := by
  cases place with
  | nil => decide +kernel
  | cons first rest =>
    have mark : "#/" = "#" ++ "/" := rfl
    rw [shown, List.map_cons, ← joinWith_eq_written, ofSegments, List.map_cons, mark,
      String.append_assoc]

/-- A path is always read, and only the root is taken for something else. -/
theorem readFragment?_ofSegments (place : List String) :
    readFragment? (ofSegments place) = some (shown place) := by
  rw [ofSegments_eq_written, readFragment?_append, read?_written_escape]

theorem shown_eq_self_iff {place : List String} : shown place = place ↔ place ≠ [] := by
  cases place <;> simp [shown]

/-- Two places that are read alike are one, or both are read as the key without a name. -/
theorem shown_eq_iff {place place' : List String} : shown place = shown place' ↔
    place = place' ∨ (place = [] ∨ place = [""]) ∧ (place' = [] ∨ place' = [""]) := by
  cases place <;> cases place' <;> grind [shown]

theorem ofSegments_eq_iff {place place' : List String} : ofSegments place = ofSegments place' ↔
    place = place' ∨ (place = [] ∨ place = [""]) ∧ (place' = [] ∨ place' = [""]) := by
  rw [← shown_eq_iff]
  constructor
  · intro same
    have read := congrArg readFragment? same
    rw [readFragment?_ofSegments, readFragment?_ofSegments] at read
    exact Option.some.inj read
  · intro same
    rw [ofSegments_eq_written, same, ← ofSegments_eq_written]

end Pointer

namespace Validation

/-- All findings are understood exactly if every key and number on the way to one has a text. -/
theorem understood_eq_self_iff {findings : List (String × List Scalar)} :
    understood findings = findings ↔ ∀ f ∈ findings, ∀ key ∈ f.2, key.hasText = true := by
  simp only [understood, List.takeWhile_eq_self_iff, List.all_eq_true]

/-- The issues are one for each finding that is understood, and one for the breakdown. -/
theorem issues_ofFindings (findings : List (String × List Scalar)) (breakdown : Option String) :
    (ofFindings findings breakdown).issues =
      (understood findings).map (fun f => ⟨f.1, Pointer.ofSegments (f.2.map Scalar.display)⟩) ++
        ((ofFindings findings breakdown).breakdown.map fun reason =>
          Issue.mk ("Validator failed: " ++ reason) "#").toList := by
  rw [issues, ofFindings, List.map_map]
  rfl

end Validation

namespace Client

open Pointer (readFragment?)
open Validation (understood)

variable {g : Graph} {document : Value}

theorem errors_of_validate {v : Validation} {report : Report}
    (success : (validate g document v).result = .ok report) : report.errors = v.issues := by
  unfold validate at success
  cases linted : Report.lint g Operation.verbs document with
  | error s =>
    rw [linted] at success
    cases success
  | ok warnings =>
    rw [linted] at success
    cases success
    rfl

/-- The paths of a report lead back to what was found. The report has an issue for each finding that is
understood, which all are if every key and number has a text, with the message of the finding and the path
of its place; what it has beside them stands at the root. A path is read back to the keys and numbers on
the way, as texts, exactly if there are any, that is, if the finding is not about the root. Two places have
the same path exactly if they have the same texts, or each of them is the root or the key without a name
below it. -/
theorem paths_lead_back_iff {findings : List (String × List Scalar)} {breakdown : Option String}
    {report : Report}
    (success : (validate g document (.ofFindings findings breakdown)).result = .ok report) :
    (understood findings = findings ↔ ∀ f ∈ findings, ∀ key ∈ f.2, key.hasText = true) ∧
    ∃ (path : List Scalar → String) (broken : List Issue),
      report.errors = (understood findings).map (fun f => ⟨f.1, path f.2⟩) ++ broken ∧
      (∀ i ∈ broken, readFragment? i.path = some []) ∧
      (∀ place, readFragment? (path place) = some (place.map Scalar.display) ↔ place ≠ []) ∧
      ∀ place place', path place = path place' ↔
        place.map Scalar.display = place'.map Scalar.display ∨
          (place = [] ∨ place.map Scalar.display = [""]) ∧
            (place' = [] ∨ place'.map Scalar.display = [""]) := by
  refine ⟨Validation.understood_eq_self_iff, fun place => Pointer.ofSegments (place.map Scalar.display),
    _, (errors_of_validate success).trans (Validation.issues_ofFindings findings breakdown), ?_, ?_, ?_⟩
  · intro i member
    obtain ⟨reason, -, rfl⟩ := Option.map_eq_some_iff.mp (Option.mem_toList.mp member)
    have root : readFragment? "#" = some [] := by decide +kernel
    exact root
  · intro place
    rw [Pointer.readFragment?_ofSegments, Option.some.injEq, Pointer.shown_eq_self_iff, Ne,
      List.map_eq_nil_iff]
  · intro place place'
    rw [Pointer.ofSegments_eq_iff, List.map_eq_nil_iff, List.map_eq_nil_iff]

/-- A document without a title, and without routes. -/
def untitled : Graph :=
  ⟨#[.mapping [(.text "openapi", .text "3.0.0"), (.text "paths", .node 1)], .mapping []]⟩

/-- Findings under a number, and under keys that imitate escapes or have no name. -/
def strangeFindings : List (String × List Scalar) :=
  [("no text", [.text "paths", .text "~1/pets~", .int (-1)]), ("no list", [.text "", .text ""])]

/-- They are led to where they lie. -/
theorem strange_keys_are_led_to :
    ∃ report, (validate untitled (.node 0)
        (.ofFindings strangeFindings (some "out of memory"))).result = .ok report ∧
      (report.errors.take 2).map (fun i => (i.message, readFragment? i.path)) =
        [("no text", some ["paths", "~1/pets~", "-1"]), ("no list", some ["", ""])] := by
  obtain ⟨report, success⟩ : ∃ report, (validate untitled (.node 0)
      (.ofFindings strangeFindings (some "out of memory"))).result = .ok report :=
    Except.exists_ok (by decide +kernel)
  obtain ⟨all, path, broken, errors, -, read, -⟩ := paths_lead_back_iff success
  rw [all.mpr (by decide +kernel)] at errors
  have first := (read [.text "paths", .text "~1/pets~", .int (-1)]).mpr nofun
  have second := (read [.text "", .text ""]).mpr nofun
  refine ⟨report, success, ?_⟩
  simp only [errors, strangeFindings, List.map_cons, List.cons_append, List.take_succ_cons,
    List.take_zero, List.map_nil, first, second]
  decide +kernel

/-- The path of the root is not read back to the root: it is that of the key without a name below it. -/
theorem root_is_written_as_a_nameless_key :
    (validate untitled (.node 0) (.ofFindings [("'info' is a required property", [])] none)).result =
        .ok ⟨[⟨"'info' is a required property", "#/"⟩], []⟩ ∧
      readFragment? "#/" = some [""] ∧ readFragment? "#/" ≠ some [] ∧
      Pointer.ofSegments [] = Pointer.ofSegments [""] := by
  decide +kernel

end Client

end TypedClient
