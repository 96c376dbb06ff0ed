import TypedClient.Files
import TypedClient.Proofs.Failure.Success

/-!
# What files hold

Where a path leads does not depend on what is stored: the files on the way only decide whether the
walk arrives. Writing a file changes the text at its place and no other; making directories changes
the text of no file.
-/
namespace TypedClient

namespace Files

/-- The text of the file at a place, if there is one. -/
def text? (fs : Files) (place : Place) : Option String :=
  match fs.at? place with
  | some (.file text) => some text
  | _ => none

/-- The place that a path leads to from a working directory, as far as the walk goes. -/
def placeOf (workingDirectory path : Path) : Place :=
  (workingDirectory.append path).segments.foldl (fun here s => Path.step here (Text.readBack s)) []

variable {fs fs' : Files} {here place : Place} {wd path : Path} {text : String}

theorem walk_eq_ok {segments : List String} (arrives : fs.walk here segments = .ok place) :
    place = segments.foldl (fun here s => Path.step here (Text.readBack s)) here := by
  induction segments generalizing here with
  | nil => exact (Except.ok.inj arrives).symm
  | cons s segments ih =>
    unfold walk at arrives
    split at arrives
    · cases arrives
    · cases arrives
    · split at arrives
      · cases arrives
      · exact ih arrives

theorem locate_eq_ok (arrives : fs.locate wd path = .ok place) : place = placeOf wd path := by
  unfold locate at arrives
  split at arrives
  · exact walk_eq_ok arrives
  · cases arrives

theorem text?_put_file (storable : place ≠ []) (other : Place) :
    (fs.put place (.file text)).text? other =
      if other = place then some text else fs.text? other := by
  unfold text?
  by_cases same : other = place
  · rw [if_pos same, same, at?_put_self fs _ storable]
  · rw [if_neg same, at?_put_of_ne fs _ same]

/-- Putting a directory where nothing is changes no file. -/
theorem text?_put_directory (free : fs.at? place = none) (other : Place) :
    (fs.put place .directory).text? other = fs.text? other := by
  unfold text?
  by_cases same : other = place
  · have storable : place ≠ [] := by
      rintro rfl
      cases free
    rw [same, at?_put_self fs _ storable, free]
  · rw [at?_put_of_ne fs _ same]

theorem atPath_eq_ok {α : Type} {r : Except FileFault α} {a : α} (success : atPath path r = .ok a) :
    r = .ok a := by
  unfold atPath at success
  split at success <;> cases success
  rfl

/-! ### Writing -/

/-- A file that has been written has its text, and all others have theirs. -/
theorem text?_of_write (success : fs.write wd path text = .ok fs') (other : Place) :
    fs'.text? other = if other = placeOf wd path then some text else fs.text? other := by
  obtain ⟨place, arrives, success⟩ := Except.bind_eq_ok (atPath_eq_ok success)
  rw [← locate_eq_ok arrives]
  split at success
  · cases success
  · next free =>
    cases success
    exact text?_put_file (fun root => free (by rw [root]; rfl)) other

/-! ### Making directories -/

theorem text?_of_ensureDirectory (success : fs.ensureDirectory wd path = .ok fs') :
    fs'.text? = fs.text? := by
  unfold ensureDirectory at success
  split at success
  · next made =>
    cases success
    obtain ⟨place, -, made⟩ := Except.bind_eq_ok made
    split at made
    · cases made
    · next free =>
      cases made
      exact funext (text?_put_directory free)
  · cases success
  · split at success <;> cases success
    rfl

/-- Making directories changes no file. -/
theorem text?_of_makeDirectories (success : fs.makeDirectories wd path = .ok fs') :
    fs'.text? = fs.text? := by
  induction segments : path.segments.length generalizing path fs' with
  | zero =>
    rw [List.length_eq_zero_iff] at segments
    unfold makeDirectories at success
    split at success
    · cases atPath_eq_ok ((if_pos segments).symm.trans success)
    · exact text?_of_ensureDirectory (atPath_eq_ok success)
  | succ n ih =>
    have above : path.parent.segments.length = n := by
      rw [Path.parent, List.length_dropLast, segments, Nat.add_sub_cancel]
    unfold makeDirectories at success
    split at success
    · rw [if_neg (fun root => by rw [root] at segments; cases segments)] at success
      obtain ⟨between, parents, success⟩ := Except.bind_eq_ok success
      rw [text?_of_ensureDirectory (atPath_eq_ok success), ih parents above]
    · exact text?_of_ensureDirectory (atPath_eq_ok success)

/-! ### Several files -/

/-- The text that was written last to a place. -/
def lastText (written : List (Place × String)) (place : Place) : Option String :=
  (written.reverse.find? fun w => w.1 = place).map (·.2)

theorem lastText_append (first second : List (Place × String)) (place : Place) :
    lastText (first ++ second) place = (lastText second place).or (lastText first place) := by
  unfold lastText
  rw [List.reverse_append, List.find?_append]
  cases second.reverse.find? fun w => w.1 = place <;> rfl

theorem lastText_cons (w : Place × String) (rest : List (Place × String)) (place : Place) :
    lastText (w :: rest) place =
      (lastText rest place).or (if place = w.1 then some w.2 else none) := by
  have single : lastText [w] place = if place = w.1 then some w.2 else none := by
    unfold lastText
    by_cases same : place = w.1
    · simp [same]
    · simp [same, Ne.symm same]
  rw [← single, ← lastText_append, List.singleton_append]

end Files

end TypedClient
