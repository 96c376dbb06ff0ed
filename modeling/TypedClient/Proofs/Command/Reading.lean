import TypedClient.Command
import TypedClient.Machine

/-!
# What leaves the files alone

On a machine, most steps of a command only read and tell something. Whatever is made of such steps
leaves all files as they are: in particular the generation of a client, up to and including its
failure.
-/
namespace TypedClient

namespace Machine

/-- The action leaves the files of every machine as they are, and stays where it is. -/
def Spares {α : Type} (a : StateM Machine α) : Prop :=
  ∀ m : Machine, (a m).2.files = m.files ∧ (a m).2.workingDirectory = m.workingDirectory

namespace Spares

variable {α β : Type}

theorem pure (a : α) : Spares (Pure.pure a : StateM Machine α) := fun _ => ⟨rfl, rfl⟩

theorem bind {a : StateM Machine α} {next : α → StateM Machine β} (first : Spares a)
    (rest : ∀ x, Spares (next x)) : Spares (a >>= next) := by
  intro m
  obtain ⟨files, place⟩ := rest (a m).1 (a m).2
  obtain ⟨files', place'⟩ := first m
  exact ⟨files.trans files', place.trans place'⟩

theorem forM {l : List α} {f : α → StateM Machine PUnit} (each : ∀ x, Spares (f x)) :
    Spares (l.forM f) := by
  induction l with
  | nil => exact .pure _
  | cons x l ih => exact (each x).bind fun _ => ih

theorem report (line : String) : Spares (Host.report line) := fun _ => ⟨rfl, rfl⟩

theorem print (line : String) : Spares (Host.print line) := fun _ => ⟨rfl, rfl⟩

theorem readText (path : Path) : Spares (Host.readText path) := fun _ => ⟨rfl, rfl⟩

/-! ### Steps -/

theorem ofResult (r : Result α) : Spares (Step.ofResult r : Step (StateM Machine) α).run := .pure r

theorem ofAction {a : StateM Machine (Result α)} (action : Spares a) :
    Spares (Step.ofAction a).run := action

theorem lift {a : StateM Machine α} (action : Spares a) :
    Spares (liftM a : Step (StateM Machine) α).run :=
  action.bind fun x => .pure (Except.ok x : Result α)

theorem step {a : Step (StateM Machine) α} {next : α → Step (StateM Machine) β}
    (first : Spares a.run) (rest : ∀ x, Spares (next x).run) : Spares (a >>= next).run := by
  rw [ExceptT.run_bind]
  refine first.bind fun r => ?_
  cases r with
  | error s => exact .pure _
  | ok x => exact rest x

end Spares

end Machine

open Machine (Spares)

theorem Settings.spares_loadTransformer (path : Path) :
    Spares (Settings.loadTransformer path : Step (StateM Machine) Client.Transformer).run := by
  unfold Settings.loadTransformer
  refine .step (.ofAction fun _ => ⟨rfl, rfl⟩) fun isFile => ?_
  split
  · exact .ofResult _
  · split
    · exact .ofResult _
    · refine .step (.lift fun _ => ⟨rfl, rfl⟩) fun loading => ?_
      cases loading with
      | ready transformer => exact .pure _
      | failed reason => exact .ofResult _
      | notCallable => exact .ofResult _

namespace Command

theorem spares_readSource (location : String) :
    Spares (readSource location : Step (StateM Machine) Source).run := by
  unfold readSource
  have ends : ∀ text, Spares (do
      let format ← Step.ofResult (Location.format location (some text))
      return ⟨text, format.name, some location⟩ : Step (StateM Machine) Source).run :=
    fun text => .step (.ofResult _) fun format => .pure _
  simp only
  split
  · refine .step (.ofAction (.bind (fun _ => ⟨rfl, rfl⟩) fun reply => ?_)) ends
    cases reply with
    | ok text => exact .pure _
    | error reason => exact .pure _
  · exact .step (.ofAction (.readText _)) ends

/-- Generating a client leaves all files as they are, whether or not it succeeds. -/
theorem spares_generateClient (verbose : Bool) (s : Settings) :
    Spares (generateClient verbose s : Step (StateM Machine) Client).run := by
  unfold generateClient
  refine .step ?_ fun transformer => .step (spares_readSource _) fun source => ?_
  · cases s.transformer with
    | none => exact .pure _
    | some path => exact .step (Settings.spares_loadTransformer path) fun _ => .pure _
  · refine .step (.lift fun _ => ⟨rfl, rfl⟩) fun validator => ?_
    exact .step (.lift (.forM fun line => .report line)) fun _ => .ofResult _

end Command

end TypedClient
