import TypedClient.Files
import TypedClient.Host

/-!
# Machines

A machine is a host that is a value: a file system without symbolic links, what remote places answer,
the transformers that files hold and the lines written so far. Running a command on a machine gives the
machine after it.
-/
namespace TypedClient

structure Machine where
  files : Files
  workingDirectory : Path
  /-- What remote places answer; there is no route to the others. -/
  remote : List (String × Except String String) := []
  /-- The transformers that files hold; the other files hold none. -/
  transformers : List (Place × Loading) := []
  validator : Validator := fun _ _ => {}
  output : List String := []
  messages : List String := []

namespace Machine

def noRoute : String := "no route to host"

def fetch (s : Machine) (address : String) : Except String String :=
  (s.remote.lookup address).getD (.error noRoute)

def loadTransformer (s : Machine) (path : Path) : Loading :=
  match s.files.locate s.workingDirectory path with
  | .ok place => (s.transformers.lookup place).getD .notCallable
  | .error _ => .notCallable

/-- Takes over the files that an operation leaves, if it succeeds. -/
def commit (s : Machine) : Result Files → Result Unit × Machine
  | .ok files => (.ok (), { s with files := files })
  | .error stop => (.error stop, s)

/-- Writes a file. A text that cannot be stored leaves the file empty. -/
def writeFile (s : Machine) (path : Path) (text : String) : Result Unit × Machine :=
  if Text.hasHalf text then
    match s.commit (s.files.write s.workingDirectory path "") with
    | (.ok (), s) => (malformed .unstorable, s)
    | refused => refused
  else s.commit (s.files.write s.workingDirectory path text)

instance : Host (StateM Machine) where
  workingDirectory := fun s => (s.workingDirectory, s)
  readFile := fun path s => (s.files.read s.workingDirectory path, s)
  isFile := fun path s => (s.files.isFile s.workingDirectory path, s)
  makeDirectories := fun path s => s.commit (s.files.makeDirectories s.workingDirectory path)
  writeFile := fun path text s => s.writeFile path text
  fetch := fun address s => (s.fetch address, s)
  loadTransformer := fun path s => (s.loadTransformer path, s)
  validator := fun s => (s.validator, s)
  print := fun line s => ((), { s with output := s.output ++ [line] })
  report := fun line s => ((), { s with messages := s.messages ++ [line] })

end Machine

end TypedClient
