import SymbolIndex.Package.Basic

/-!
# Attribution of files to packages

A package claims a file when one of its paths is the file or a directory above
it.  Of several packages the one whose root lies deepest owns the file, where
the root of a package is the directory that all its paths share.  Two packages
with equally deep roots are in conflict.  Files listed as the project's own
belong to the project whoever claims them.
-/

namespace SymbolIndex

open FilePath (Component)

inductive Owner where
  | project
  | package (package : Package)
  deriving DecidableEq

/-- Two packages that own a path with equal right. -/
structure AttributionConflict where
  path : FilePath
  first : Package
  second : Package
  deriving DecidableEq

namespace AttributionConflict

def message (conflict : AttributionConflict) : String :=
  s!"Packages {conflict.first.display} and {conflict.second.display} both claim " ++
    s!"{conflict.path.text} with equal precedence"

end AttributionConflict

/-- The packages of an environment and the project's own files.  The paths of
both are cleaned when the registry is built. -/
structure Registry where
  packages : List Package
  projectFiles : List FilePath
  deriving DecidableEq

namespace Package

/-- The steps that all paths of a list share. -/
def sharedRoot : List FilePath → List Component
  | [] => []
  | first :: rest =>
    rest.foldl (fun root file => root.take (FilePath.sharedSteps root file.components))
      first.components

/-- The root of a package: the steps that all its paths share. -/
def root (package : Package) : List Component :=
  sharedRoot package.files.paths

/-- Whether the given path or a directory above it is a path of a package. -/
def claims (package : Package) (path : FilePath) : Bool :=
  path.ancestors.any fun above => package.files.paths.any (·.sameSteps above)

/-- How many steps the root of a package shares with a path. -/
def score (package : Package) (path : FilePath) : Nat :=
  FilePath.sharedSteps package.root path.components

end Package

namespace Registry

def ofPackages (packages : List Package) : Registry :=
  ⟨packages.map Package.clean, []⟩

def addProjectFiles (registry : Registry) (files : List FilePath) :
    Registry :=
  { registry with projectFiles := registry.projectFiles ++ files.map FilePath.clean }

/-- What is known of the best package after some of the candidates. -/
structure Ranking where
  best : Package
  score : Nat
  /-- The last other package with the best score. -/
  tied : Option Package

def rank (path : FilePath) (ranking : Option Ranking) (candidate : Package) :
    Option Ranking :=
  let score := candidate.score path
  match ranking with
  | none => some ⟨candidate, score, none⟩
  | some ranking =>
    if score < ranking.score then some ranking
    else if score = ranking.score then some { ranking with tied := some candidate }
    else some ⟨candidate, score, none⟩

def resolve (registry : Registry) (path : FilePath) :
    Except AttributionConflict Owner :=
  let path := path.clean
  if registry.projectFiles.any (·.sameSteps path) then .ok .project
  else
    let candidates := registry.packages.filter (·.claims path)
    match candidates.foldl (rank path) none with
    | none => .ok .project
    | some ⟨best, _, none⟩ => .ok (.package best)
    | some ⟨best, _, some other⟩ => .error ⟨path, best, other⟩

end Registry

end SymbolIndex
