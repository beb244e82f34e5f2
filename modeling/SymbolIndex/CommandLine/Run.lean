import SymbolIndex.CommandLine.Arguments
import SymbolIndex.Index.Store
import SymbolIndex.Settings.Files
import SymbolIndex.Snapshot.Suite

/-!
# The program

What the program does for each command.  It tells on the standard output what it
has done and on the standard error output what went wrong, and its exit code is
zero exactly when nothing did.
-/

namespace SymbolIndex

namespace CommandLine

/-- Why a command ends early. -/
inductive CommandError where
  /-- It is told what went wrong, and what that was caused by. -/
  | failed (chain : List String)
  /-- The program stops where it is. -/
  | stopped (reason : String)
  deriving DecidableEq, Repr

namespace CommandError

def message : CommandError → String
  | failed chain => "Error: " ++ String.intercalate ": " chain
  | stopped reason => "thread 'main' panicked: " ++ reason

def exitCode : CommandError → Nat
  | failed _ => 1
  | stopped _ => 101

def ofExecution : ExecutionError → CommandError
  | .assembly error => .failed error.chain
  | .workers (.threads reason) =>
    .failed [s!"Pipeline error: failed to build thread pool: {reason}"]
  | .workers .queue => .stopped "capacity overflow"

end CommandError

def single {ε : Type} (message : ε → String) (error : ε) : CommandError :=
  .failed [message error]

/-- What a command comes to: whether it found no problem. -/
abbrev Outcome := Attempt CommandError Bool

def runCreate (force : Bool) : Outcome := do
  let path ← Attempt.mapError
    (fun error => .failed ["Failed to create configuration", error.message])
    (Settings.create force)
  Session.printLine s!"Created configuration file at: {path.text}"
  return true

def runShow (settings : Settings) : Outcome := do
  Session.printLine "Current Configuration:"
  Session.printLine (String.ofList (List.replicate 50 '='))
  match settings.print? with
  | some text =>
    Session.printLine text
    return true
  | none => throw (single SaveError.message .unprintable)

/-- The settings of a run that differ from those of the workspace. -/
def adjust (settings : Settings) (threads : Option Nat) (abort : Bool) : Settings :=
  { settings with
    indexing := { settings.indexing with
      threads := threads.getD settings.indexing.threads
      policy := if abort then .abort else settings.indexing.policy } }

def printFailures : List UnindexedFile → Session Unit
  | [] => return ()
  | failure :: rest => do
    Session.printErrorLine s!"Failed to index {failure.path}: {failure.error.message}"
    printFailures rest

def writeRenderings (root dir : FilePath) : List Document → Attempt CommandError Nat
  | [] => return 0
  | document :: rest => do
    if document.isOutside then writeRenderings root dir rest
    else
      let input := root.child document.relativePath
      let source ← Attempt.ofSession
        (fun error => CommandError.failed [s!"Failed to read {input.text}", error.message])
        (Session.readText input)
      Attempt.mapError (CommandError.failed ·.chain)
        (Golden.write (dir.child document.relativePath) (Snapshot.render source document))
      return (← writeRenderings root dir rest) + 1

namespace IndexArguments

variable (given : IndexArguments) (settings : Settings)

def root : FilePath :=
  given.projectRoot.getD settings.projectRoot

def identify : Attempt ResolutionError ProjectIdentity :=
  ProjectIdentity.resolve (given.root settings) (given.projectName <|> settings.project.name)
    (given.projectVersion <|> settings.project.version)

def packageOrigin : PackageOrigin :=
  PackageOrigin.choose (given.environment <|> settings.packages.environment)
    (.live settings.liveEnvironment)

def analysisDirectory : FilePath :=
  given.analysis.getD settings.indexing.analysisDirectory

def outputPath : FilePath :=
  given.output.getD settings.indexing.output

def naming (identity : ProjectIdentity) (registry : Registry) : ProjectNaming where
  ecosystem := settings.ecosystem
  manager := settings.packages.manager
  project := identity
  projectRoot := given.root settings
  registry

end IndexArguments

def warnOfNoFiles (dir : FilePath) (files : List AnalyzerOutput) : Session Unit :=
  if files.isEmpty then
    Session.printErrorLine s!"Warning: no analyzer output found in {dir.text}"
  else return ()

/-- The configuration of an assembly.  The program may stop where the size of the queue
is worked out. -/
def configFor (settings : Settings) : Attempt CommandError AssemblyConfig := do
  if (← Session.checksOverflow) && AssemblyConfig.overflows settings.indexing.threads then
    throw (.stopped "attempt to multiply with overflow")
  else return settings.assembly

/-- Puts the index of a project together and tells which files failed.  `arguments` are
those of the program, which the index tells. -/
def assembleFiles (settings : Settings) (given : IndexArguments) (arguments : List String)
    (context : ProjectNaming) (files : List AnalyzerOutput) :
    Attempt CommandError (AssemblyReport × Nat) := do
  warnOfNoFiles (given.analysisDirectory settings) files
  let config ← configFor settings
  let metadata :=
    Index.metadataFor (← Session.workingDirectory) (given.root settings) arguments
  let (report, elapsed) ← Attempt.mapError .ofExecution
    (Index.execute config context metadata (files.map .ofFile))
  printFailures report.failures
  return (report, elapsed)

def indexSummary (report : AssemblyReport) (total : Nat) (output : FilePath)
    (elapsed : Nat) : String :=
  s!"Indexed {report.indexed} of {total} files into {output.text} " ++
    s!"in {Elapsed.render elapsed}"

/-- Writes the snapshots of documents if they are asked for. -/
def publishSnapshots (given : IndexArguments) (root : FilePath) (documents : List Document) :
    Attempt CommandError Unit := do
  match given.snapshotDirectory with
  | some dir =>
    let written ← writeRenderings root dir documents
    Session.printLine s!"Wrote {written} snapshots to {dir.text}"
  | none => return ()

/-- Saves an index that was made of so many files, with the snapshots of its documents. -/
def publishIndex (settings : Settings) (given : IndexArguments) (total : Nat)
    (report : AssemblyReport) (elapsed : Nat) : Outcome := do
  let output := given.outputPath settings
  Attempt.mapError (CommandError.failed ·.chain) (report.index.save output)
  Session.printLine (indexSummary report total output elapsed)
  publishSnapshots given (given.root settings) report.index.documents
  return report.isClean

/-- Finds out what the index of a project is made from, puts it together and saves it. -/
def runIndex (settings : Settings) (given : IndexArguments) (arguments : List String) :
    Outcome := do
  let settings := adjust settings given.threads given.abortOnError
  let identity ← Attempt.mapError (single ResolutionError.message) (given.identify settings)
  let registry ← Attempt.mapError (single RegistryUnavailable.message)
    (Registry.load (given.packageOrigin settings))
  let files ← Attempt.mapError (CommandError.failed ·.chain)
    (AnalyzedFile.loadDirectory (given.analysisDirectory settings))
  let (report, elapsed) ←
    assembleFiles settings given arguments (given.naming settings identity registry) files
  publishIndex settings given files.length report elapsed

def printMismatches : List Mismatch → Session Unit
  | [] => return ()
  | mismatch :: rest => do
    Session.printErrorLine mismatch.message
    printMismatches rest

def runSnapshot (settings : Settings) (given : SnapshotArguments) : Outcome := do
  let settings := adjust settings given.threads false
  let config ← configFor settings
  let suite : Suite := {
    root := given.root
    ecosystem := settings.ecosystem
    manager := settings.packages.manager
    environment := given.environment
    only := given.only
    policy := config.policy }
  let mode := if given.check then SuiteMode.check else .update
  let report ← Attempt.mapError (CommandError.failed ·.chain) (suite.run mode)
  printFailures report.failures
  printMismatches report.mismatches
  match mode with
  | .check =>
    Session.printLine <|
      s!"Checked {report.documents} documents in {report.cases} cases: " ++
        s!"{report.mismatches.length} mismatches"
  | .update =>
    Session.printLine s!"Updated {report.written} documents in {report.cases} cases"
  return report.isSuccess

def runEnvironment (settings : Settings) (output : Option FilePath)
    (projectVersion : Option String) : Outcome := do
  let source := settings.liveEnvironment
  let packages ← Attempt.mapError
    (fun error => CommandError.failed (s!"Failed to query {source.describe}" :: error.chain))
    source.load
  let version := (projectVersion <|> settings.project.version).getD "default"
  let output := output.getD (PackageCache.pathFor settings.packages.cacheDirectory version)
  Attempt.mapError (single CacheWriteError.message) (PackageCache.write output packages)
  Session.printLine s!"Wrote {packages.length} packages to {output.text}"
  return true

def runCommand (settings : Settings) (arguments : List String) : Command → Outcome
  | .create force => runCreate force
  | .show => runShow settings
  | .index given => runIndex settings given arguments
  | .snapshot given => runSnapshot settings given
  | .environment output projectVersion => runEnvironment settings output projectVersion

def logDirectives (settings : LoggingSettings) : String :=
  settings.modules.foldl (fun directives (name, level) => s!"{directives},{name}={level}")
    settings.default

/-- The filter of the log.  The variable `RUST_LOG` counts before settings.  Tells
which directives are not understood. -/
def logFilter (settings : LoggingSettings) : Session LogFilter := do
  let environment ← Session.environment
  let directives := (environment.lookup "RUST_LOG").getD (logDirectives settings)
  let (filter, refused) := LogFilter.read directives
  printRefused refused
  return filter
where
  printRefused : List (String × LogDirectiveError) → Session Unit
    | [] => return ()
    | (directive, error) :: rest => do
      Session.printErrorLine s!"ignoring `{directive}`: {error.message}"
      printRefused rest

/-- The settings of a run.  Without settings that can be understood it goes on
with the usual ones. -/
def settingsFor (invocation : Invocation) : Session Settings := do
  let loaded ←
    match invocation.config with
    | some path => (Settings.loadFile path).run
    | none => Settings.load.run
  let settings ←
    match loaded with
    | .ok settings => pure settings
    | .error error => do
      Session.printErrorLine s!"Configuration error: {error.message}"
      pure (Settings.usual (← Session.processors))
  if invocation.debug then
    return { settings with logging := { settings.logging with default := "debug" } }
  else return settings

def runInvocation (invocation : Invocation) (arguments : List String) : Session Nat := do
  let settings ← settingsFor invocation
  let filter ← logFilter settings.logging
  let outcome ← (runCommand settings arguments invocation.command).run.withLogFilter filter
  match outcome with
  | .ok true => return 0
  | .ok false => return 1
  | .error error => do
    Session.printErrorLine error.message
    return error.exitCode

def usage : String :=
  String.intercalate "\n" [
    "Assign SCIP symbols to analyzed source files and assemble the index",
    "",
    "Usage: symdex [OPTIONS] <COMMAND>",
    "",
    "Commands:",
    "  init         Initialize configuration file",
    "  config       Show current configuration",
    "  index        Name every analyzed file and write the index",
    "  snapshot     Check or update a snapshot suite",
    "  environment  Query pip and write a package environment cache",
    "  help         Print this message or the help of the given subcommand(s)"]

/-- Runs the program with some arguments and gives the exit code. -/
def run (arguments : List String) : Session Nat := do
  let environment ← Session.environment
  match readArguments environment arguments with
  | .ok invocation => runInvocation invocation arguments
  | .error .help => do
    Session.printLine usage
    return 0
  | .error .version => do
    Session.printLine "symdex 0.3.1"
    return 0
  | .error (.wrong reason) => do
    Session.printErrorLine s!"error: {reason}"
    return 2

end CommandLine

end SymbolIndex
