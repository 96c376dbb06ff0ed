import TypedClient.Command

/-!
# The program

Commands on the system that the program runs on. Remote places cannot be reached from here, the
files of transformers cannot be run, and no validator is at hand: its part of a report is empty.
-/
namespace TypedClient.Main

/-- The fault behind an error of the system. The code 21 stands for a directory. -/
def faultOf : IO.Error → FileFault
  | .alreadyExists _ _ _ => .alreadyExists
  | .inappropriateType _ code _ => if code = 21 then .isDirectory else .notDirectory
  | .invalidArgument _ _ _ => .nameTooLong
  | _ => .missing

/-- Carries out an action on the file of a path, unless there can be none. -/
def attempt {α : Type} (path : Path) (action : String → IO α) : IO (Result α) := do
  match path.refusal? with
  | some m => return malformed m
  | none =>
    try
      return .ok (← action (Text.toShown path.text))
    catch e =>
      return .error (.file ⟨faultOf e, path.text⟩)

/-- The text of a file. -/
def readFile (path : Path) : IO (Result String) := do
  return (← attempt path fun name => IO.FS.readFile name).map Text.ofString

/-- Writes a file. A text that cannot be stored leaves the file empty. -/
def writeFile (path : Path) (text : String) : IO (Result Unit) := do
  let storable := !Text.hasHalf text
  match ← attempt path fun name => IO.FS.writeFile name (if storable then Text.toShown text else "")
  with
  | .ok () => return if storable then .ok () else malformed .unstorable
  | refused => return refused

def isFile (path : Path) : IO (Result Bool) := do
  match ← readFile path with
  | .ok _ => return .ok true
  | .error (.file e) => return if e.fault = .nameTooLong then .error (.file e) else .ok false
  | .error _ => return .ok false

instance : Host IO where
  workingDirectory := do
    let here ← IO.currentDir
    return Path.ofText (Text.ofString here.toString)
  readFile := readFile
  isFile := isFile
  makeDirectories := fun path => attempt path fun name => IO.FS.createDirAll name
  writeFile := writeFile
  fetch := fun _ => return .error "no route to host"
  loadTransformer := fun _ => return .failed "transformers cannot be run here"
  validator := return fun _ _ => {}
  print := fun line => IO.println (Text.toShown line)
  report := fun line => IO.eprintln (Text.toShown line)

end TypedClient.Main

open TypedClient in
def main (arguments : List String) : IO UInt32 := do
  match ← Command.run (arguments.map Text.ofString) with
  | .code n => return n.toUInt32
  | .defect _ =>
    IO.eprintln "Error: the document is malformed"
    return 1
