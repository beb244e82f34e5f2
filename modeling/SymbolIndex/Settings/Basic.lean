import SymbolIndex.Index.Assembly
import SymbolIndex.Package.Origin

/-!
# Settings

What can be set about a project, the indexing of its files, the packages that it
depends on, and the log.
-/

namespace SymbolIndex

/-- What is set about the indexed project.  What is not set is found out. -/
structure ProjectSettings where
  name : Option String := none
  version : Option String := none
  root : Option FilePath := none
  deriving DecidableEq, Repr

structure IndexingSettings where
  threads : Nat
  analysisDirectory : FilePath := ⟨".symdex/analysis"⟩
  output : FilePath := ⟨"index.scip"⟩
  policy : FailurePolicy := .proceed
  deriving DecidableEq, Repr

structure PackageSettings where
  scheme : String := Ecosystem.python.scheme
  manager : String := "pypi"
  normalization : Normalization := Ecosystem.python.normalization
  /-- The cache to take packages from instead of asking for them. -/
  environment : Option FilePath := none
  cacheDirectory : FilePath := ⟨".symdex/cache"⟩
  pipCommand : String := "pip"
  /-- How many packages to ask for at a time. -/
  pipBatchSize : Nat := 256
  deriving DecidableEq, Repr

structure LoggingSettings where
  /-- The level for everything without a level of its own. -/
  default : String := "warn"
  modules : List (String × String) := []
  deriving DecidableEq, Repr

structure Settings where
  version : Nat := 1
  /-- The directory with the settings of the workspace. -/
  workspaceRoot : Option FilePath := none
  project : ProjectSettings := {}
  indexing : IndexingSettings
  packages : PackageSettings := {}
  logging : LoggingSettings := {}
  deriving DecidableEq, Repr

namespace Settings

/-- How many threads are used on a machine unless it is set: all processors but
one. -/
def usualThreads (processors : Nat) : Nat :=
  max (processors - 1) 1

def usual (processors : Nat) : Settings :=
  { indexing := { threads := usualThreads processors } }

def projectRoot (settings : Settings) : FilePath :=
  (settings.project.root <|> settings.workspaceRoot).getD ⟨"."⟩

def ecosystem (settings : Settings) : Ecosystem :=
  ⟨settings.packages.scheme, settings.packages.normalization⟩

def assembly (settings : Settings) : AssemblyConfig :=
  .make settings.indexing.threads settings.indexing.policy

def liveEnvironment (settings : Settings) : LiveEnvironment :=
  ⟨settings.packages.pipCommand, settings.packages.pipBatchSize⟩

end Settings

end SymbolIndex
