import TypedClient.Failure
import TypedClient.Path

/-!
# Files

A file system is what is stored at each place, a place being the segments from the root: a file or
a directory. There are no symbolic links and no permissions, so each place has one way to it and
whatever is there can be read and written. A path is walked segment by segment: each place on the way
must be a directory, and a way back leads to the directory above even where it could have been left
out. Names are stored as bytes, so that texts with the same bytes are one name. An error names the
path as it was given.

The statements say that what is put at a place is found there and nothing else changes.
-/
namespace TypedClient

namespace Path

/-- Why there can be no file with a name. -/
def nameRefusal? (segment : String) : Option Malformed :=
  if isUnstorable segment then some .unstorable
  else if isNulled segment then some .malformedPath
  else none

/-- Why there can be no file at a path, which must have bytes before anything else. -/
def refusal? (p : Path) : Option Malformed :=
  if p.segments.any isUnstorable then some .unstorable
  else if p.segments.any isNulled then some .malformedPath
  else none

end Path

inductive Stored where
  | file (text : String)
  | directory
  deriving DecidableEq, Repr

abbrev Place := List String

structure Files where
  entries : List (Place × Stored) := []
  deriving DecidableEq, Repr

namespace Files

/-- What is stored at a place. The root is a directory. -/
def at? (fs : Files) (place : Place) : Option Stored :=
  if place = [] then some .directory else (fs.entries.find? fun e => e.1 = place).map (·.2)

def put (fs : Files) (place : Place) (stored : Stored) : Files :=
  ⟨(place, stored) :: fs.entries.filter fun e => e.1 ≠ place⟩

theorem at?_put_self {place : Place} (fs : Files) (stored : Stored) (h : place ≠ []) :
    (fs.put place stored).at? place = some stored := by
  simp [at?, put, h]

theorem at?_put_of_ne {place other : Place} (fs : Files) (stored : Stored) (h : other ≠ place) :
    (fs.put place stored).at? other = fs.at? other := by
  have kept : (fs.entries.filter fun e => e.1 ≠ place).find? (fun e => e.1 = other) =
      fs.entries.find? fun e => e.1 = other := by
    rw [List.find?_filter]
    congr 1
    funext e
    by_cases he : e.1 = other <;> simp [he, h]
  unfold at? put
  simp only [List.find?_cons, Ne.symm h, decide_false]
  rw [kept]

/-- The longest name, in bytes. -/
def maxNameSize : Nat := 255

/-- The length from which on a path is too long, in bytes. -/
def pathSizeLimit : Nat := 4096

/-- Follows segments from a place to the place that they lead to, where there may be nothing. -/
def walk (fs : Files) (here : Place) : List String → Except FileFault Place
  | [] => .ok here
  | s :: rest =>
    match fs.at? here with
    | none => .error .missing
    | some (.file _) => .error .notDirectory
    | some .directory =>
      if maxNameSize < Text.byteSize s then .error .nameTooLong
      else walk fs (Path.step here (Text.readBack s)) rest

/-- The place that a path leads to from a working directory. -/
def locate (fs : Files) (workingDirectory path : Path) : Except FileFault Place :=
  if Text.byteSize path.text < pathSizeLimit then fs.walk [] (workingDirectory.append path).segments
  else .error .nameTooLong

/-- The result of an operation on the file of a path. -/
def atPath {α : Type} (path : Path) (r : Except FileFault α) : Result α :=
  match path.refusal?, r with
  | some m, _ => malformed m
  | none, .ok a => .ok a
  | none, .error fault => .error (.file ⟨fault, path.text⟩)

def readFile (fs : Files) (workingDirectory path : Path) : Except FileFault String := do
  let place ← fs.locate workingDirectory path
  match fs.at? place with
  | none => .error .missing
  | some .directory => .error .isDirectory
  | some (.file text) => .ok text

/-- The text of a file. -/
def read (fs : Files) (workingDirectory path : Path) : Result String :=
  atPath path (fs.readFile workingDirectory path)

def isDirectory (fs : Files) (workingDirectory path : Path) : Bool :=
  match fs.locate workingDirectory path with
  | .ok place => fs.at? place = some .directory
  | .error _ => false

/-- Whether there is a file at a path. A name that is too long is an error even here. -/
def isFile (fs : Files) (workingDirectory path : Path) : Result Bool :=
  if path.refusal?.isSome then .ok false
  else
    match fs.readFile workingDirectory path with
    | .ok _ => .ok true
    | .error .nameTooLong => .error (.file ⟨.nameTooLong, path.text⟩)
    | .error _ => .ok false

def writeFile (fs : Files) (workingDirectory path : Path) (text : String) :
    Except FileFault Files := do
  let place ← fs.locate workingDirectory path
  match fs.at? place with
  | some .directory => .error .isDirectory
  | _ => .ok (fs.put place (.file text))

/-- Writes a file, in place of the one that was there. -/
def write (fs : Files) (workingDirectory path : Path) (text : String) : Result Files :=
  atPath path (fs.writeFile workingDirectory path text)

/-- Makes one directory. -/
def makeDirectory (fs : Files) (workingDirectory path : Path) : Except FileFault Files := do
  let place ← fs.locate workingDirectory path
  match fs.at? place with
  | some _ => .error .alreadyExists
  | none => .ok (fs.put place .directory)

/-- Makes a directory unless it is there already. -/
def ensureDirectory (fs : Files) (workingDirectory path : Path) : Except FileFault Files :=
  match fs.makeDirectory workingDirectory path with
  | .ok fs => .ok fs
  | .error .missing => .error .missing
  | .error fault => if fs.isDirectory workingDirectory path then .ok fs else .error fault

/-- Makes a directory and the directories on the way to it, unless they are there already. -/
def makeDirectories (fs : Files) (workingDirectory path : Path) : Result Files :=
  match fs.ensureDirectory workingDirectory path with
  | .error .missing =>
    if path.segments = [] then atPath path (.error .missing)
    else do
      let fs ← makeDirectories fs workingDirectory path.parent
      atPath path (fs.ensureDirectory workingDirectory path)
  | r => atPath path r
termination_by path.segments.length
decreasing_by
  rename_i h
  have := List.length_pos_iff.mpr h
  simp only [Path.parent, List.length_dropLast]
  omega

end Files

end TypedClient
