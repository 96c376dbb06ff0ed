import TypedClient.Client
import TypedClient.Path

/-!
# Hosts

What a command needs from where it runs: files below a working directory, documents from remote
places, transformers, a validator and two streams of lines. Commands are written against this
interface alone, so that they run on a real system and on a machine that is a value.
-/
namespace TypedClient

/-- What loading the file of a transformer brings. -/
inductive Loading where
  | ready (transformer : Client.Transformer)
  /-- The file could not be loaded, for the given reason. -/
  | failed (reason : String)
  /-- The file holds no transformer that can be applied. -/
  | notCallable

class Host (m : Type → Type) where
  workingDirectory : m Path
  readFile : Path → m (Result String)
  isFile : Path → m (Result Bool)
  makeDirectories : Path → m (Result Unit)
  writeFile : Path → String → m (Result Unit)
  /-- The text of a remote document, or why there is none. -/
  fetch : String → m (Except String String)
  loadTransformer : Path → m Loading
  validator : m Validator
  /-- Writes a line of output. -/
  print : String → m Unit
  /-- Writes a line of messages. -/
  report : String → m Unit

/-- A step of a command: it may stop, and what was done before stays done. -/
abbrev Step (m : Type → Type) (α : Type) := ExceptT Stop m α

namespace Step

variable {m : Type → Type} [Monad m] {α : Type}

def ofResult (r : Result α) : Step m α := ExceptT.mk (pure r)

def ofAction (action : m (Result α)) : Step m α := ExceptT.mk action

end Step

namespace Host

variable {m : Type → Type} [Monad m] [Host m]

/-- The text of a file, read line by line. -/
def readText (path : Path) : m (Result String) := do
  let r ← readFile path
  return r.map fun text => String.ofList (Text.unifyLineEnds text.toList)

end Host

end TypedClient
