import SymbolIndex.CommandLine.Options
import SymbolIndex.FilePath

/-!
# Commands

The commands that the arguments of the program can ask for.
-/

namespace SymbolIndex

namespace CommandLine

/-- What an index is made from and where it goes.  What is not given is taken
from the settings. -/
structure IndexArguments where
  analysis : Option FilePath
  output : Option FilePath
  projectRoot : Option FilePath
  projectName : Option String
  projectVersion : Option String
  environment : Option FilePath
  threads : Option Nat
  abortOnError : Bool
  /-- The directory in which to put snapshots of all documents. -/
  snapshotDirectory : Option FilePath
  deriving DecidableEq, Repr

structure SnapshotArguments where
  root : FilePath
  only : Option String
  check : Bool
  environment : Option FilePath
  threads : Option Nat
  deriving DecidableEq, Repr

/-- What the program is asked to do. -/
inductive Command where
  | create (force : Bool)
  | show
  | index (arguments : IndexArguments)
  | snapshot (arguments : SnapshotArguments)
  /-- Ask for the packages of the environment and cache them. -/
  | environment (output : Option FilePath) (projectVersion : Option String)
  deriving DecidableEq, Repr

structure Invocation where
  /-- The file with the settings, if it is not in its usual place. -/
  config : Option FilePath
  debug : Bool
  command : Command
  deriving DecidableEq, Repr

def commonOptions : List OptionForm :=
  [⟨"config", none, .path⟩, ⟨"debug", none, .flag⟩]

def topLevel : Level :=
  ⟨commonOptions, true, true, 0⟩

def commandLevel (places : Nat) (options : List OptionForm) : Level :=
  ⟨options ++ commonOptions, false, false, places⟩

def levels : List (String × Level) := [
  ("init", commandLevel 0 [⟨"force", some 'f', .flag⟩]),
  ("config", commandLevel 0 []),
  ("index", commandLevel 0 [
    ⟨"analysis", some 'a', .path⟩, ⟨"output", some 'o', .path⟩,
    ⟨"project-root", none, .path⟩, ⟨"project-name", none, .text⟩,
    ⟨"project-version", none, .text⟩, ⟨"environment", none, .path⟩,
    ⟨"threads", some 't', .number⟩, ⟨"abort-on-error", none, .flag⟩,
    ⟨"snapshot-dir", none, .path⟩]),
  ("snapshot", commandLevel 1 [
    ⟨"only", none, .text⟩, ⟨"check", none, .flag⟩, ⟨"environment", none, .path⟩,
    ⟨"threads", some 't', .number⟩]),
  ("environment", commandLevel 0 [
    ⟨"output", some 'o', .path⟩, ⟨"project-version", none, .text⟩])]

namespace Given

def path? (given : Given) (name : String) : Option FilePath :=
  (given.value? name).map FilePath.mk

def natural? (given : Given) (name : String) : Option Nat :=
  (given.value? name).bind number?

end Given

def commandOf (name : String) (given : Given) : Except UsageEnd Command :=
  match name with
  | "init" => .ok (.create (given.hasFlag "force"))
  | "config" => .ok .show
  | "index" => .ok <| .index {
      analysis := given.path? "analysis"
      output := given.path? "output"
      projectRoot := given.path? "project-root"
      projectName := given.value? "project-name"
      projectVersion := given.value? "project-version"
      environment := given.path? "environment"
      threads := given.natural? "threads"
      abortOnError := given.hasFlag "abort-on-error"
      snapshotDirectory := given.path? "snapshot-dir" }
  | "snapshot" =>
    match given.places with
    | [root] =>
      if root = "" then .error (.wrong "a value is required for '<ROOT>'")
      else .ok <| .snapshot {
        root := ⟨root⟩
        only := given.value? "only"
        check := given.hasFlag "check"
        environment := given.path? "environment"
        threads := given.natural? "threads" }
    | _ => .error (.wrong "the argument '<ROOT>' was not provided")
  | "environment" =>
    .ok (.environment (given.path? "output") (given.value? "project-version"))
  | _ => .error (.wrong s!"unrecognized subcommand '{name}'")

def configVariable : String := "SYMDEX_CONFIG"

/-- The file with the settings: given after the command, before it, or by a
variable.  The variable counts at each level where no file is given, so it must
not be empty unless one is given at both. -/
def configOf (environment : List (String × String)) (before after : Given) :
    Except UsageEnd (Option FilePath) :=
  let fallback := environment.lookup configVariable
  let given := [before, after].map fun level => level.path? "config"
  if fallback = some "" && given.contains none then
    .error (.wrong "a value is required for '--config'")
  else .ok (after.path? "config" <|> before.path? "config" <|> fallback.map FilePath.mk)

def helpOn : List String → UsageEnd
  | [] => .help
  | name :: more =>
    if name ≠ "help" && (levels.lookup name).isNone then
      .wrong s!"unrecognized subcommand '{name}'"
    else
      match more with
      | [] => .help
      | topic :: _ => .wrong s!"unrecognized subcommand '{topic}'"

def readArguments (environment : List (String × String)) (arguments : List String) :
    Except UsageEnd Invocation := do
  let (before, rest) ← scan topLevel {} arguments
  match rest with
  | [] => .error (.wrong "a subcommand is required")
  | "help" :: topics => .error (helpOn topics)
  | name :: rest =>
    match levels.lookup name with
    | none => .error (.wrong s!"unrecognized subcommand '{name}'")
    | some level =>
      let (after, _) ← scan level {} rest
      let command ← commandOf name after
      return {
        config := ← configOf environment before after
        debug := before.hasFlag "debug" || after.hasFlag "debug"
        command }

end CommandLine

end SymbolIndex
