import TypedClient.Proofs.Command.Reading
import TypedClient.Proofs.Files.Contents

/-!
# Runs of the command that generates clients

Clients are generated and written one after the other. What a client writes is known from the client
alone, and it is written only when all of the client has been generated. So wherever a run stops in
the generation of a client, the files hold what the clients before it have written, and otherwise
what they held before the run.
-/
namespace TypedClient

theorem Machine.bind_apply {α β : Type} (a : StateM Machine α) (next : α → StateM Machine β)
    (m : Machine) : (a >>= next) m = next (a m).1 (a m).2 := rfl

/-- What a step comes to on a machine, and the machine afterwards. -/
def Step.on {α : Type} (step : Step (StateM Machine) α) (m : Machine) : Result α × Machine :=
  step.run m

namespace Step

variable {α β : Type} {step : Step (StateM Machine) α} {next : α → Step (StateM Machine) β}
  {m m' : Machine} {stop : Stop}

theorem on_bind_ok {x : α} (first : step.on m = (.ok x, m')) :
    (step >>= next).on m = (next x).on m' := by
  unfold on at first ⊢
  rw [ExceptT.run_bind, Machine.bind_apply, first]

theorem on_bind_error (first : step.on m = (.error stop, m')) :
    (step >>= next).on m = (.error stop, m') := by
  unfold on at first ⊢
  rw [ExceptT.run_bind, Machine.bind_apply, first]
  rfl

theorem on_bind_eq_ok {b : β} (success : (step >>= next).on m = (.ok b, m')) :
    ∃ x between, step.on m = (.ok x, between) ∧ (next x).on between = (.ok b, m') := by
  cases first : step.on m with
  | mk r between =>
    cases r with
    | error stop =>
      rw [on_bind_error first] at success
      cases success
    | ok x => exact ⟨x, between, rfl, by rwa [on_bind_ok first] at success⟩

theorem files_eq (spares : Machine.Spares step.run) {r : Result α} (outcome : step.on m = (r, m')) :
    m'.files = m.files ∧ m'.workingDirectory = m.workingDirectory := by
  have same : (step.run m).2 = m' := congrArg Prod.snd outcome
  rw [← same]
  exact spares m

end Step

namespace Machine

theorem commit_eq_ok {m m' : Machine} {r : Result Files} (success : m.commit r = (.ok (), m')) :
    ∃ fs, r = .ok fs ∧ m' = { m with files := fs } := by
  cases r with
  | error stop => cases success
  | ok fs => exact ⟨fs, rfl, (Prod.mk.inj success).2.symm⟩

/-- The files hold what has been written to them last, and where nothing has been written what they
held before. -/
structure Wrote (m : Machine) (written : List (Place × String)) (m' : Machine) : Prop where
  text : ∀ place, m'.files.text? place =
    (Files.lastText written place).or (m.files.text? place)
  workingDirectory : m'.workingDirectory = m.workingDirectory

namespace Wrote

variable {m m₁ m' : Machine} {first second : List (Place × String)}

theorem nothing (files : m'.files.text? = m.files.text?)
    (place : m'.workingDirectory = m.workingDirectory) : Wrote m [] m' :=
  ⟨fun other => by rw [files]; rfl, place⟩

theorem append (before : Wrote m first m₁) (after : Wrote m₁ second m') :
    Wrote m (first ++ second) m' := by
  refine ⟨fun place => ?_, after.workingDirectory.trans before.workingDirectory⟩
  rw [after.text, before.text, Files.lastText_append, Option.or_assoc]

theorem writeFile {path : Path} {text : String}
    (success : (Step.ofAction (Host.writeFile path text)).on m = (.ok (), m')) :
    Wrote m [(Files.placeOf m.workingDirectory path, text)] m' := by
  change m.writeFile path text = _ at success
  unfold Machine.writeFile at success
  split at success
  · split at success
    · cases success
    · next other => exact absurd success (other m')
  · obtain ⟨fs, files, rfl⟩ := commit_eq_ok success
    refine ⟨fun place => ?_, rfl⟩
    rw [Files.text?_of_write files, Files.lastText_cons]
    by_cases here : place = Files.placeOf m.workingDirectory path <;> simp [here, Files.lastText]

theorem makeDirectories {path : Path}
    (success : (Step.ofAction (Host.makeDirectories path)).on m = (.ok (), m')) : Wrote m [] m' := by
  change m.commit (m.files.makeDirectories m.workingDirectory path) = _ at success
  obtain ⟨fs, made, rfl⟩ := commit_eq_ok success
  exact .nothing (Files.text?_of_makeDirectories made) rfl

end Wrote

end Machine

namespace Command

open Machine (Wrote)

/-- What is written for a client below a directory, in order. -/
def written (workingDirectory output : Path) (c : Client) : List (Place × String) :=
  (Output.files c).map fun f =>
    (Files.placeOf workingDirectory (output.append (Path.ofText f.1)), f.2)

variable {verbose : Bool} {m m₁ m₂ m' : Machine} {s : Settings} {c : Client} {stop : Stop}

/-! ### One client -/

theorem wrote_forM {output : Path} {fs : List (String × String)}
    (success : (fs.forM fun f => Step.ofAction
      (Host.writeFile (m := StateM Machine) (output.append (Path.ofText f.1)) f.2)).on m =
        (.ok (), m')) :
    Wrote m (fs.map fun f =>
      (Files.placeOf m.workingDirectory (output.append (Path.ofText f.1)), f.2)) m' := by
  induction fs generalizing m with
  | nil =>
    cases success
    exact .nothing rfl rfl
  | cons f fs ih =>
    rw [List.forM] at success
    obtain ⟨⟨⟩, between, first, rest⟩ := Step.on_bind_eq_ok success
    have here := Wrote.writeFile first
    have others := ih rest
    rw [here.workingDirectory] at others
    exact here.append others

theorem wrote_writeClient {output : Path}
    (success : (writeClient c output).on m = (.ok (), m')) :
    Wrote m (written m.workingDirectory output c) m' := by
  obtain ⟨⟨⟩, between, made, success⟩ := Step.on_bind_eq_ok success
  have directories := Wrote.makeDirectories made
  have files := wrote_forM success
  rw [directories.workingDirectory] at files
  exact directories.append files

/-- A client that is generated and written is written completely. -/
theorem wrote_runClient (success : (runClient verbose s).on m = (.ok (), m')) :
    ∃ c m₁, (generateClient verbose s).on m = (.ok c, m₁) ∧
      Wrote m (written m.workingDirectory s.output c) m' := by
  obtain ⟨c, m₁, generated, success⟩ := Step.on_bind_eq_ok success
  obtain ⟨⟨⟩, m₂, wrote, success⟩ := Step.on_bind_eq_ok success
  refine ⟨c, m₁, generated, ?_⟩
  obtain ⟨files, place⟩ := Step.files_eq (spares_generateClient verbose s) generated
  have untouched : Wrote m [] m₁ := .nothing (by rw [files]) place
  have whole := untouched.append (wrote_writeClient wrote)
  rw [place] at whole
  have printed : ∀ line, Machine.Spares
      (liftM (Host.print (m := StateM Machine) line) : Step (StateM Machine) Unit).run :=
    fun line => .lift (.print line)
  have told : ∀ step : Step (StateM Machine) Unit, Machine.Spares step.run →
      step.on m₂ = (.ok (), m') → Wrote m (written m.workingDirectory s.output c) m' := by
    intro step spares outcome
    obtain ⟨files', place'⟩ := Step.files_eq spares outcome
    have rest : Wrote m₂ [] m' := .nothing (by rw [files']) place'
    exact List.append_nil (written m.workingDirectory s.output c) ▸ whole.append rest
  simp only at success
  split at success
  · exact told _ (.step (printed _) fun _ => printed _) success
  · exact told _ (printed _) success

/-! ### Several clients -/

/-- The clients are generated and written one after the other, each on the machine that those before
it have left. -/
inductive Ran (verbose : Bool) : Machine → List (Settings × Client) → Machine → Prop
  | nil (m : Machine) : Ran verbose m [] m
  | cons {m m₁ m₂ m' : Machine} {s : Settings} {c : Client} {done : List (Settings × Client)}
    (generated : (generateClient verbose s).on m = (.ok c, m₁))
    (ran : (runClient verbose s).on m = (.ok (), m₂)) (rest : Ran verbose m₂ done m') :
    Ran verbose m ((s, c) :: done) m'

/-- What is written for several clients, in order. -/
def writtenAll (workingDirectory : Path) (done : List (Settings × Client)) : List (Place × String) :=
  done.flatMap fun d => written workingDirectory d.1.output d.2

/-- The first client that has run was generated on the machine at the start. -/
theorem Ran.first {done : List (Settings × Client)} (ran : Ran verbose m ((s, c) :: done) m') :
    ∃ m₁, (generateClient verbose s).on m = (.ok c, m₁) := by
  cases ran with
  | cons generated _ _ => exact ⟨_, generated⟩

/-- Clients that have run have written their files and no others. -/
theorem Ran.wrote {done : List (Settings × Client)} (ran : Ran verbose m done m') :
    Wrote m (writtenAll m.workingDirectory done) m' := by
  induction ran with
  | nil m => exact .nothing rfl rfl
  | cons generated ran rest ih =>
    obtain ⟨c', m₁', generated', wrote⟩ := wrote_runClient ran
    cases generated.symm.trans generated'
    rw [wrote.workingDirectory] at ih
    exact wrote.append ih

end Command

end TypedClient
