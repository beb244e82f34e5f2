import SymbolIndex.Analysis.Directory
import SymbolIndex.Elapsed
import SymbolIndex.Index.Draft
import SymbolIndex.Naming.Basic

/-!
# Assembly of an index

The files of a project are named and their documents put together in the order
of the files.  A file that fails is left out and reported, or ends the assembly,
as the failure policy says.
-/

namespace SymbolIndex

inductive FailurePolicy where
  /-- The file is reported and the others go on. -/
  | proceed
  /-- Nothing after the file is merged. -/
  | abort
  deriving DecidableEq, Repr, Inhabited

namespace FailurePolicy

def text : FailurePolicy → String
  | proceed => "continue"
  | abort => "abort"

end FailurePolicy

structure AssemblyConfig where
  threads : Nat
  /-- How many named files may wait to be merged. -/
  queueSize : Nat
  policy : FailurePolicy
  deriving DecidableEq, Repr

namespace AssemblyConfig

/-- How many results may wait for each thread. -/
def placesPerThread : Nat := 16

/-- The configuration for a number of threads, where zero counts as one.  The size of the
queue is a machine word. -/
def make (threads : Nat) (policy : FailurePolicy) : AssemblyConfig :=
  ⟨max threads 1, max threads 1 * placesPerThread % UInt64.size, policy⟩

/-- Whether the queue for a number of threads has more places than a machine word tells. -/
def overflows (threads : Nat) : Bool :=
  UInt64.size ≤ max threads 1 * placesPerThread

end AssemblyConfig

inductive IndexingError where
  | load (error : AnalysisError)
  | naming (error : NamingError)
  deriving DecidableEq

namespace IndexingError

def message : IndexingError → String
  | load error => error.message
  | naming error => error.message

def chain : IndexingError → List String
  | load error => error.chain
  | naming error => error.chain

end IndexingError

structure UnindexedFile where
  path : String
  error : IndexingError
  deriving DecidableEq

inductive AssemblyError where
  | aborted (failure : UnindexedFile)
  | missingMetadata
  deriving DecidableEq

namespace AssemblyError

def message : AssemblyError → String
  | aborted failure => s!"Indexing aborted at {failure.path}: {failure.error.message}"
  | missingMetadata => "Index has no metadata record"

def chain (error : AssemblyError) : List String :=
  match error with
  | aborted failure => error.message :: failure.error.chain
  | missingMetadata => [error.message]

end AssemblyError

/-- Why an assembly by several workers comes to nothing. -/
inductive ExecutionError where
  /-- The workers do not start. -/
  | workers (error : WorkersError)
  | assembly (error : AssemblyError)
  deriving DecidableEq

structure IndexInput where
  /-- The name of the file in reports. -/
  label : String
  analysis : Except AnalysisError AnalyzedFile

namespace IndexInput

def ofAnalysis (analysis : AnalyzedFile) : IndexInput :=
  ⟨analysis.relativePath, .ok analysis⟩

def ofFile (file : AnalyzerOutput) : IndexInput :=
  ⟨file.label, file.analysis⟩

def name (input : IndexInput) (context : ProjectNaming) : Except IndexingError NamedFile :=
  match input.analysis with
  | .error error => .error (.load error)
  | .ok analysis => (context.nameFile analysis).mapError .naming

def contribution (input : IndexInput) (context : ProjectNaming) :
    Except IndexingError Contribution :=
  (input.name context).map fun named => .ofDocument named.document

end IndexInput

/-- How far an assembly has come. -/
structure AssemblyProgress where
  draft : IndexDraft := {}
  failures : List UnindexedFile := []
  indexed : Nat := 0
  aborted : Option UnindexedFile := none
  deriving DecidableEq

namespace AssemblyProgress

/-- The progress after the next file in order.  Nothing happens after a failure
that ends the assembly. -/
def add (policy : FailurePolicy) (progress : AssemblyProgress) (label : String)
    (result : Except IndexingError Contribution) : AssemblyProgress :=
  match progress.aborted, result with
  | some _, _ => progress
  | none, .ok part =>
    { progress with
      draft := progress.draft.merge part
      indexed := progress.indexed + part.documents.length }
  | none, .error error =>
    match policy with
    | .proceed => { progress with failures := progress.failures ++ [⟨label, error⟩] }
    | .abort => { progress with aborted := some ⟨label, error⟩ }

def addInput (context : ProjectNaming) (policy : FailurePolicy)
    (progress : AssemblyProgress) (input : IndexInput) : AssemblyProgress :=
  progress.add policy input.label (input.contribution context)

end AssemblyProgress

structure AssemblyReport where
  index : Index
  failures : List UnindexedFile
  indexed : Nat
  deriving DecidableEq

namespace AssemblyReport

def isClean (report : AssemblyReport) : Bool :=
  report.failures.isEmpty

end AssemblyReport

namespace AssemblyProgress

def start (metadata : Metadata) : AssemblyProgress :=
  { draft := IndexDraft.merge {} (.ofMetadata metadata) }

/-- What an assembly with this progress comes to. -/
def finish (progress : AssemblyProgress) : Except AssemblyError AssemblyReport :=
  match progress.aborted, progress.draft.finish? with
  | some failure, _ => .error (.aborted failure)
  | none, some index => .ok ⟨index, progress.failures, progress.indexed⟩
  | none, none => .error .missingMetadata

end AssemblyProgress

namespace Index

def metadataFor (workingDirectory root : FilePath) (arguments : List String) : Metadata where
  version := 0
  toolInfo := some ⟨"symdex", "0.3.1", arguments⟩
  projectRoot := "file://" ++ (root.absoluteFrom workingDirectory).text
  textDocumentEncoding := 1

/-- The index of some files, named and merged one after the other. -/
def assemble (context : ProjectNaming) (policy : FailurePolicy) (metadata : Metadata)
    (inputs : List IndexInput) : Except AssemblyError AssemblyReport :=
  let progress := inputs.foldl (AssemblyProgress.addInput context policy)
    (AssemblyProgress.start metadata)
  progress.finish

end Index

def NamedFile.reportTo (target : String) (entities : Nat) (named : NamedFile) :
    LogEvent :=
  ⟨.debug, target,
    s!"[namer] {named.document.relativePath}: {entities} entities, " ++
      s!"{named.document.occurrences.length} occurrences, {named.localCount} locals"⟩

namespace Index

def namingTarget : String := "symdex::indexing::namer"

def assemblyTarget : String := "symdex::indexing::pipeline"

def eventOf (context : ProjectNaming) (input : IndexInput) : LogEvent :=
  match input.analysis, input.name context with
  | .ok analysis, .ok named => named.reportTo namingTarget analysis.entities.length
  | _, .ok named => named.reportTo namingTarget 0
  | _, .error error =>
    ⟨.warn, assemblyTarget, s!"[pipeline] failed to index {input.label}: {error.message}"⟩

/-- Reports the naming of files, up to a failure that ends the assembly. -/
def reportNaming (context : ProjectNaming) (policy : FailurePolicy) :
    List IndexInput → Session Unit
  | [] => return ()
  | input :: rest => do
    let event := eventOf context input
    Session.request (.log event)
    if policy = .abort && event.level = .warn then return ()
    else reportNaming context policy rest

/-- Puts the index of some files together.  Gives the report and the time that it took
since the assembly was started. -/
def buildSince (started : Nat) (context : ProjectNaming) (policy : FailurePolicy)
    (metadata : Metadata) (inputs : List IndexInput) :
    Attempt AssemblyError (AssemblyReport × Nat) := do
  reportNaming context policy inputs
  match assemble context policy metadata inputs with
  | .error error => throw error
  | .ok report =>
    let elapsed := (← Session.clock) - started
    Session.log .info assemblyTarget <|
      s!"[pipeline] complete: indexed={report.indexed} failed={report.failures.length} " ++
        s!"of {inputs.length} files in {Elapsed.render elapsed}"
    return (report, elapsed)

/-- Puts the index of some files together, with workers that are taken to start. -/
def build (context : ProjectNaming) (policy : FailurePolicy) (metadata : Metadata)
    (inputs : List IndexInput) : Attempt AssemblyError (AssemblyReport × Nat) := do
  buildSince (← Session.clock) context policy metadata inputs

/-- Starts workers and puts the index of some files together. -/
def execute (config : AssemblyConfig) (context : ProjectNaming) (metadata : Metadata)
    (inputs : List IndexInput) : Attempt ExecutionError (AssemblyReport × Nat) := do
  let started ← Session.clock
  Attempt.ofSession .workers (Session.startWorkers config.threads config.queueSize)
  Attempt.mapError .assembly (buildSince started context config.policy metadata inputs)

end Index

end SymbolIndex
