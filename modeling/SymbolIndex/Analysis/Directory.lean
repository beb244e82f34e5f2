import SymbolIndex.Analysis.Json
import SymbolIndex.FilePath.Order
import SymbolIndex.Machine.Session

/-!
# Directories of analyses

The output of an analyzer is a directory with one JSON file for each source
file, at any depth.  The files are loaded in the order of their paths.  A file
that cannot be read keeps its place, with the reason.
-/

namespace SymbolIndex

inductive AnalysisError where
  | read (path : FilePath) (error : FileError)
  | parse (path : FilePath)
  deriving DecidableEq

namespace AnalysisError

def message : AnalysisError → String
  | read path error => s!"Failed to read analysis {path.text}: {error.message}"
  | parse path => s!"Failed to parse analysis {path.text}: not an analysis"

def chain (error : AnalysisError) : List String :=
  match error with
  | read _ cause => [error.message, cause.message]
  | parse _ => [error.message]

end AnalysisError

/-- A file of analyzer output with what was found in it. -/
structure AnalyzerOutput where
  path : FilePath
  analysis : Except AnalysisError AnalyzedFile

namespace AnalyzerOutput

/-- The name of a file in reports: the analyzed file once it is known. -/
def label (file : AnalyzerOutput) : String :=
  match file.analysis with
  | .ok analysis => analysis.relativePath
  | .error _ => file.path.text

def isRead (file : AnalyzerOutput) : Bool :=
  match file.analysis with
  | .ok _ => true
  | .error _ => false

end AnalyzerOutput

namespace AnalyzedFile

def load (path : FilePath) : Attempt AnalysisError AnalyzedFile := do
  let text ← Attempt.ofSession (.read path) (Session.readText path)
  match read? text with
  | some analysis => return analysis
  | none => throw (.parse path)

def loadEntry (path : FilePath) :
    Except FileError EntryKind → Session (Option AnalyzerOutput)
  | .error error => return some ⟨path, .error (.read path error)⟩
  | .ok .file => do
    if path.extension? = some "json" then return some ⟨path, ← (load path).run⟩
    else return none
  | .ok .directory => return none

def loadEntries :
    List (FilePath × Except FileError EntryKind) → Session (List AnalyzerOutput)
  | [] => return []
  | (path, kind) :: rest => do
    let first ← loadEntry path kind
    let others ← loadEntries rest
    return first.toList ++ others

def sortFiles (files : List AnalyzerOutput) : List AnalyzerOutput :=
  files.mergeSort fun a b => a.path.le b.path

/-- The analyses in a directory and below it.  A directory that is not there
holds none. -/
def loadDirectory (dir : FilePath) : Attempt AnalysisError (List AnalyzerOutput) := do
  if ← Session.pathExists dir then
    let entries ← Attempt.ofSession (.read dir) (Session.walk dir)
    return sortFiles (← loadEntries entries)
  else return []

end AnalyzedFile

end SymbolIndex
