import SymbolIndex.Machine.Basic

/-!
# Replacing a file at once

A file gets new bytes by way of a temporary file beside it, which is moved over
it when it is complete.  Whoever reads the file meanwhile sees the old bytes or
the new ones, and a replacement that fails leaves no temporary file behind.
-/

namespace SymbolIndex

inductive ReplaceError where
  /-- The new bytes could not be written beside the file. -/
  | prepare (error : FileError)
  /-- The new bytes could not take the file's place. -/
  | publish (error : FileError)
  deriving DecidableEq, Repr

namespace ReplaceError

def cause : ReplaceError → FileError
  | prepare error => error
  | publish error => error

end ReplaceError

namespace Session

def abandon (temporary : FilePath) (error : ReplaceError) :
    Session (Except ReplaceError Unit) := do
  let _ ← removeFile temporary
  return .error error

/-- Gives a file new bytes at once, making the directories above it. -/
def replaceFile (path : FilePath) (content : ByteArray) :
    Session (Except ReplaceError Unit) := do
  match ← makeDirectories path.directory with
  | .error error => return .error (.prepare error)
  | .ok () =>
    match ← makeTemporary path.directory with
    | .error error => return .error (.prepare error)
    | .ok temporary =>
      match ← writeFile temporary content with
      | .error error => abandon temporary (.prepare error)
      | .ok () =>
        match ← rename temporary path with
        | .error error => abandon temporary (.publish error)
        | .ok () => return .ok ()

end Session

end SymbolIndex
