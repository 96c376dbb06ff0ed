import TypedClient.Text.Quoted

/-!
# File errors

What can go wrong when a file is read or written, and for which path.
-/
namespace TypedClient

inductive FileFault where
  | missing
  | isDirectory
  | notDirectory
  | alreadyExists
  | nameTooLong
  deriving DecidableEq, Repr

structure FileError where
  fault : FileFault
  path : String
  deriving DecidableEq, Repr

def FileFault.message : FileFault → String
  | .missing => "[Errno 2] No such file or directory"
  | .isDirectory => "[Errno 21] Is a directory"
  | .notDirectory => "[Errno 20] Not a directory"
  | .alreadyExists => "[Errno 17] File exists"
  | .nameTooLong => "[Errno 36] File name too long"

def FileError.message (e : FileError) : String := e.fault.message ++ ": " ++ Text.quoted e.path

end TypedClient
