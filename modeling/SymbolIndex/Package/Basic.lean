import SymbolIndex.FilePath.Order

/-!
# Packages

A package is an installed dependency with the paths that it owns.
-/

namespace SymbolIndex

structure Package where
  name : String
  version : String
  files : PathSet
  deriving DecidableEq

namespace Package

/-- A package with cleaned paths. -/
def make (name version : String) (files : List FilePath) : Package :=
  ⟨name, version, .cleaned files⟩

def clean (package : Package) : Package :=
  .make package.name package.version package.files.paths

def display (package : Package) : String :=
  s!"{package.name}=={package.version}"

end Package

end SymbolIndex
