import SymbolIndex.Machine.Replace
import SymbolIndex.Package.Cache
import SymbolIndex.Package.Listing
import SymbolIndex.Package.Registry
import SymbolIndex.Text.Lossy

/-!
# Sources of packages

Where the packages of an environment come from: a cache file, a fixed list, or
the package manager, which first lists the names and then shows the packages a
batch of names at a time.
-/

namespace SymbolIndex

structure LiveEnvironment where
  program : String := "pip"
  /-- How many packages to ask for at a time; zero counts as one. -/
  batchSize : Nat := 256
  deriving DecidableEq, Repr

/-- Where the packages of an environment come from. -/
inductive PackageOrigin where
  | cache (path : FilePath)
  | fixed (packages : List Package)
  | live (environment : LiveEnvironment)

inductive CommandFailure where
  | notStarted
  | failed (errors : String)
  | unexpectedOutput
  deriving DecidableEq, Repr

namespace CommandFailure

def message : CommandFailure → String
  | notStarted => FileError.notFound.message
  | failed errors => errors
  | unexpectedOutput => "unexpected output: not a list of packages"

end CommandFailure

inductive SourceError where
  | cacheRead (path : FilePath) (error : FileError)
  | cacheParse (path : FilePath)
  | command (called : String) (failure : CommandFailure)
  deriving DecidableEq

namespace SourceError

def message : SourceError → String
  | cacheRead path error => s!"Failed to read package cache {path.text}: {error.message}"
  | cacheParse path => s!"Failed to parse package cache {path.text}: not a list of packages"
  | command called failure => s!"Command '{called}' failed: {failure.message}"

def chain (error : SourceError) : List String :=
  match error with
  | cacheRead _ cause => [error.message, cause.message]
  | cacheParse _ | command _ _ => [error.message]

end SourceError

/-- A source without which there is no registry. -/
structure RegistryUnavailable where
  description : String
  cause : SourceError
  deriving DecidableEq

namespace RegistryUnavailable

def message (error : RegistryUnavailable) : String :=
  s!"Package registry unavailable: {error.description}: {error.cause.message}"

end RegistryUnavailable

structure CacheWriteError where
  path : FilePath
  cause : ReplaceError
  deriving DecidableEq

namespace CacheWriteError

def message (error : CacheWriteError) : String :=
  s!"Failed to write package cache {error.path.text}: {error.cause.cause.message}"

end CacheWriteError

namespace LiveEnvironment

def target : String := "symdex::package::pip"

def describe (environment : LiveEnvironment) : String :=
  s!"live query via '{environment.program}'"

/-- What the program prints when it is run with a command and further arguments. -/
def query (environment : LiveEnvironment) (command : String) (arguments : List String) :
    Attempt SourceError String := do
  let called := s!"{environment.program} {command}"
  match ← (Session.runProgram environment.program (command :: arguments) none : Session _) with
  | none => throw (.command called .notStarted)
  | some result =>
    if result.succeeded then return Text.decodeLossy result.output
    else throw (.command called (.failed (Text.trim (Text.decodeLossy result.errors))))

def listedName? (value : Json) : Option String := do
  match ← value.record? ["name"] with
  | [name] => Json.required Json.string? name
  | _ => none

def listedNames? (text : String) : Option (List String) :=
  (Json.read? text).bind (Json.list? listedName?)

/-- A list in pieces of `size + 1` items, the last of which may be shorter, in
at most so many pieces. -/
def chunksWithin {α : Type} (size : Nat) : Nat → List α → List (List α)
  | _, [] => []
  | 0, _ :: _ => []
  | fuel + 1, item :: rest =>
    (item :: rest.take size) :: chunksWithin size fuel (rest.drop size)

/-- The batches in which names are asked for. -/
def batches (environment : LiveEnvironment) (names : List String) : List (List String) :=
  chunksWithin (environment.batchSize - 1) names.length names

def showBatches (environment : LiveEnvironment) :
    List (List String) → Attempt SourceError (List Package)
  | [] => return []
  | batch :: rest => do
    let shown ← environment.query "show" ("-f" :: batch)
    let more ← environment.showBatches rest
    return Listing.packages shown ++ more

def load (environment : LiveEnvironment) : Attempt SourceError (List Package) := do
  let listed ← environment.query "list" ["--format=json"]
  match listedNames? listed with
  | none => throw (.command s!"{environment.program} list" .unexpectedOutput)
  | some names =>
    let packages ← environment.showBatches (environment.batches names)
    Session.log .info target s!"[packages] pip reported {packages.length} packages"
    return packages

end LiveEnvironment

namespace PackageCache

def target : String := "symdex::package::source"

def load (path : FilePath) : Attempt SourceError (List Package) := do
  let text ← Attempt.ofSession (.cacheRead path) (Session.readText path)
  match read? text with
  | some packages => return packages
  | none => throw (.cacheParse path)

def write (path : FilePath) (packages : List Package) : Attempt CacheWriteError Unit := do
  Attempt.ofSession (CacheWriteError.mk path)
    (Session.replaceFile path (print packages).toUTF8)
  Session.log .debug target s!"[packages] wrote {packages.length} packages to {path.text}"

end PackageCache

namespace PackageOrigin

def describe : PackageOrigin → String
  | cache path => s!"cached environment {path.text}"
  | fixed packages => s!"{packages.length} static packages"
  | live environment => environment.describe

def load : PackageOrigin → Attempt SourceError (List Package)
  | cache path => PackageCache.load path
  | fixed packages => return packages
  | live environment => environment.load

/-- A cache if there is one, and otherwise another source. -/
def choose (cachePath : Option FilePath) (other : PackageOrigin) : PackageOrigin :=
  match cachePath with
  | some path => cache path
  | none => other

end PackageOrigin

namespace Registry

def target : String := "symdex::package"

def load (source : PackageOrigin) : Attempt RegistryUnavailable Registry := do
  let packages ← Attempt.mapError (RegistryUnavailable.mk source.describe) source.load
  Session.log .debug target
    s!"[packages] loaded {packages.length} packages from {source.describe}"
  return .ofPackages packages

end Registry

end SymbolIndex
