import SymbolIndex.Machine.Session
import SymbolIndex.Project.Identity
import SymbolIndex.Text.Blank
import SymbolIndex.Text.Lossy
import SymbolIndex.Toml.Reader

/-!
# Finding out what a project is called

The name and version of a project are those that are given, or else those in
the manifest in its root directory, where the `project` table comes before the
table `tool.poetry`.  If no version is found it is the current revision.
-/

namespace SymbolIndex

inductive ResolutionError where
  | missingName (root : FilePath)
  | missingVersion (root : FilePath)
  | manifest (path : FilePath) (reason : String)
  deriving DecidableEq

namespace ResolutionError

def message : ResolutionError → String
  | missingName root =>
    s!"Cannot determine project name for {root.text}; set project.name"
  | missingVersion root =>
    s!"Cannot determine project version for {root.text}; set project.version"
  | manifest path reason => s!"Failed to parse {path.text}: {reason}"

end ResolutionError

structure Manifest where
  name : Option String := none
  version : Option String := none
  deriving DecidableEq, Repr

namespace Manifest

def fileName : String := "pyproject.toml"

/-- The text of a field in one of the tables that may describe a project. -/
def field? (document : Toml) (name : String) : Option String :=
  let inTable := fun table => (table.bind (Toml.field? name)).bind Toml.text?
  inTable (document.field? "project") <|>
    inTable ((document.field? "tool").bind (Toml.field? "poetry"))

def ofToml (document : Toml) : Manifest :=
  ⟨field? document "name", field? document "version"⟩

/-- The manifest of a project.  A file that cannot be read tells nothing. -/
def load (root : FilePath) : Attempt ResolutionError Manifest := do
  let path := root.child fileName
  match ← (Session.readText path : Session _) with
  | .error _ => return {}
  | .ok text =>
    match Toml.read text with
    | .ok document => return ofToml document
    | .error fault => throw (.manifest path (fault.render text))

end Manifest

namespace ProjectIdentity

def target : String := "symdex::project"

def revision (root : FilePath) : Session (Option String) := do
  match ← Session.runProgram "git" ["rev-parse", "HEAD"] (some root) with
  | none => return none
  | some result =>
    let revision := Text.trim (Text.decodeLossy result.output)
    if result.succeeded && revision ≠ "" then return some revision else return none

def resolveVersion (root : FilePath) (known : Option String) :
    Attempt ResolutionError String := do
  match known with
  | some version => return version
  | none =>
    match ← (revision root : Session _) with
    | some version => return version
    | none => throw (.missingVersion root)

/-- The identity of the project in a directory, given what is already known. -/
def resolve (root : FilePath) (name version : Option String) :
    Attempt ResolutionError ProjectIdentity := do
  let manifest ← Manifest.load root
  match name <|> manifest.name with
  | none => throw (.missingName root)
  | some name =>
    let version ← resolveVersion root (version <|> manifest.version)
    Session.log .debug target s!"[project] identity {name} {version}"
    return ⟨name, version⟩

end ProjectIdentity

end SymbolIndex
