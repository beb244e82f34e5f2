import SymbolIndex.Diff.Unified
import SymbolIndex.Machine.Replace

/-!
# Golden files

A golden file holds the snapshot that is expected of a document.  A snapshot is
compared with it or takes its place.  A golden file that is not there counts as
empty.
-/

namespace SymbolIndex

structure Mismatch where
  path : FilePath
  diff : String
  deriving DecidableEq, Repr

namespace Mismatch

def message (mismatch : Mismatch) : String :=
  s!"Snapshot mismatch for {mismatch.path.text}:\n{mismatch.diff}"

end Mismatch

inductive GoldenError where
  | read (path : FilePath) (error : FileError)
  | write (path : FilePath) (cause : ReplaceError)
  deriving DecidableEq

namespace GoldenError

def message : GoldenError → String
  | read path error => s!"IO error on {path.text}: {error.message}"
  | write path cause =>
    s!"Failed to write snapshot {path.text}: {cause.cause.message}"

def chain (error : GoldenError) : List String :=
  match error with
  | read _ cause => [error.message, cause.message]
  | write _ _ => [error.message]

end GoldenError

namespace Golden

def load (path : FilePath) : Attempt GoldenError String := do
  match ← (Session.readText path : Session _) with
  | .ok text => return text
  | .error .notFound => return ""
  | .error error => throw (.read path error)

/-- How a snapshot differs from its golden file, if it does. -/
def check (path : FilePath) (snapshot : String) : Attempt GoldenError (Option Mismatch) := do
  let expected ← load path
  if expected = snapshot then return none
  else return some ⟨path, Diff.unified path.text "obtained" expected snapshot⟩

def write (path : FilePath) (snapshot : String) : Attempt GoldenError Unit :=
  Attempt.ofSession (.write path) (Session.replaceFile path snapshot.toUTF8)

end Golden

end SymbolIndex
