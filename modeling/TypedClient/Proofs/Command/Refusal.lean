import Mathlib.Control.Monad.Basic
import TypedClient.Proofs.Command.Generation

/-!
# Failing runs

The command for generating clients can fail in reading its configuration, in looking up the clients
that it is asked for and in generating one of them. It says so on one line of messages and writes
nothing from there on. The clients before the one that fails have been written to their last file.
-/
namespace TypedClient

namespace Command

/-- The settings in a configuration that a machine holds. -/
def configured (config : String) (m : Machine) : Result (List Settings) :=
  ((Settings.load (Path.ofText config)).on m).1

variable {o : Options} {m m₁ m₂ : Machine} {config : String} {all : List Settings} {stop : Stop}
  {arguments : List String}

end Command

end TypedClient
