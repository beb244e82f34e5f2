import SymbolIndex.Index.Assembly
import SymbolIndex.Package.Origin
import SymbolIndex.Project.Resolution
import SymbolIndex.Snapshot.Callout
import SymbolIndex.Snapshot.Golden
import SymbolIndex.Snapshot.CaseIdentities

/-!
# Snapshot suites

A suite is a directory of cases.  Each case has sources below `input`, analyses
below `analysis` and golden files below `output`.  A run indexes every case and
compares the snapshots of its documents with the golden files, or puts them
there.
-/

namespace SymbolIndex

inductive SuiteMode where
  | check
  | update
  deriving DecidableEq, Repr

inductive SuiteError where
  | io (path : FilePath) (error : FileError)
  | packageInfo (path : FilePath)
  | golden (error : GoldenError)
  | analysis (error : AnalysisError)
  | assembly (error : AssemblyError)
  | registry (error : RegistryUnavailable)
  | project (error : ResolutionError)
  deriving DecidableEq

namespace SuiteError

def message : SuiteError → String
  | io path error => s!"IO error on {path.text}: {error.message}"
  | packageInfo path => s!"Invalid package info {path.text}: not package info"
  | golden error => error.message
  | analysis error => error.message
  | assembly error => error.message
  | registry error => error.message
  | project error => error.message

def chain (error : SuiteError) : List String :=
  match error with
  | io _ cause => [error.message, cause.message]
  | golden cause => cause.chain
  | analysis cause => cause.chain
  | assembly cause => cause.chain
  | packageInfo _ | registry _ | project _ => [error.message]

end SuiteError

/-- What a run of a suite comes to. -/
structure SuiteOutcome where
  cases : Nat := 0
  documents : Nat := 0
  written : Nat := 0
  mismatches : List Mismatch := []
  failures : List UnindexedFile := []
  deriving DecidableEq

namespace SuiteOutcome

/-- Whether every file was indexed and every snapshot was the expected one. -/
def isSuccess (outcome : SuiteOutcome) : Bool :=
  outcome.mismatches.isEmpty && outcome.failures.isEmpty

end SuiteOutcome

/-- Whether a document lies outside of the project, so that it has no snapshot. -/
def Document.isOutside (document : Document) : Bool :=
  "..".toList.isPrefixOf document.relativePath.toList

structure Suite where
  root : FilePath
  ecosystem : Ecosystem := .python
  manager : String := "pypi"
  /-- The cache with the packages of all cases, if it is not in its usual place. -/
  environment : Option FilePath := none
  /-- The only case to run, if not all are. -/
  only : Option String := none
  policy : FailurePolicy := .proceed

namespace Suite

def target : String := "symdex::snapshot::suite"

def inputOf (suite : Suite) (case : String) : FilePath :=
  (suite.root.child "input").child case

def analysisOf (suite : Suite) (case : String) : FilePath :=
  (suite.root.child "analysis").child case

def outputOf (suite : Suite) (case : String) : FilePath :=
  (suite.root.child "output").child case

def goldenOf (suite : Suite) (case : String) (document : Document) : FilePath :=
  (suite.outputOf case).child document.relativePath

def cases (suite : Suite) : Attempt SuiteError (List String) := do
  match suite.only with
  | some case => return [case]
  | none =>
    let input := suite.root.child "input"
    let entries ← Attempt.ofSession (.io input) (Session.list input)
    let names := (entries.filter fun (_, kind) => kind = .directory).map Prod.fst
    return names.mergeSort (· ≤ ·)

def identities (suite : Suite) : Attempt SuiteError (Option CaseIdentities) := do
  let path := suite.root.child "packageInfo.json"
  if ← Session.pathExists path then
    let text ← Attempt.ofSession (.io path) (Session.readText path)
    match CaseIdentities.read? text with
    | some identities => return some identities
    | none => throw (.packageInfo path)
  else return none

def registry (suite : Suite) : Attempt SuiteError Registry := do
  let cache := suite.environment.getD (suite.root.child "environment.json")
  let source := if ← Session.pathExists cache then .cache cache else .fixed []
  Attempt.mapError .registry (Registry.load source)

def identityOf (suite : Suite) (identities : Option CaseIdentities) (case : String) :
    Attempt SuiteError ProjectIdentity := do
  match identities with
  | some identities => return identities.identityOf case
  | none => Attempt.mapError .project (ProjectIdentity.resolve (suite.inputOf case) none none)

def assemble (suite : Suite) (identities : Option CaseIdentities)
    (registry : Registry) (case : String) : Attempt SuiteError AssemblyReport := do
  let root := suite.inputOf case
  let context : ProjectNaming := {
    ecosystem := suite.ecosystem
    manager := suite.manager
    project := ← suite.identityOf identities case
    projectRoot := root
    registry }
  let files ← Attempt.mapError .analysis (AnalyzedFile.loadDirectory (suite.analysisOf case))
  let metadata := Index.metadataFor (← Session.workingDirectory) root ["snapshot", case]
  let (report, _) ← Attempt.mapError .assembly
    (Index.build context suite.policy metadata (files.map .ofFile))
  return report

def snapshot (suite : Suite) (case : String) (document : Document) :
    Attempt SuiteError String := do
  let path := (suite.inputOf case).child document.relativePath
  let source ← Attempt.ofSession (.io path) (Session.readText path)
  return Snapshot.render source document

def runDocument (suite : Suite) (mode : SuiteMode) (case : String)
    (outcome : SuiteOutcome) (document : Document) : Attempt SuiteError SuiteOutcome := do
  let snapshot ← suite.snapshot case document
  let golden := suite.goldenOf case document
  let outcome := { outcome with documents := outcome.documents + 1 }
  match mode with
  | .check =>
    let mismatch ← Attempt.mapError .golden (Golden.check golden snapshot)
    return { outcome with mismatches := outcome.mismatches ++ mismatch.toList }
  | .update =>
    Attempt.mapError .golden (Golden.write golden snapshot)
    Session.log .debug target s!"[snapshot] updated: {golden.text}"
    return { outcome with written := outcome.written + 1 }

def runDocuments (suite : Suite) (mode : SuiteMode) (case : String) :
    SuiteOutcome → List Document → Attempt SuiteError SuiteOutcome
  | outcome, [] => return outcome
  | outcome, document :: rest => do
    if document.isOutside then
      Session.log .debug target s!"[snapshot] skipped: {document.relativePath}"
      suite.runDocuments mode case outcome rest
    else
      suite.runDocuments mode case (← suite.runDocument mode case outcome document) rest

def visitCase (suite : Suite) (mode : SuiteMode) (identities : Option CaseIdentities)
    (registry : Registry) (outcome : SuiteOutcome) (case : String) :
    Attempt SuiteError SuiteOutcome := do
  let assembled ← suite.assemble identities registry case
  let outcome := { outcome with failures := outcome.failures ++ assembled.failures }
  let outcome ← suite.runDocuments mode case outcome assembled.index.documents
  return { outcome with cases := outcome.cases + 1 }

def visitCases (suite : Suite) (mode : SuiteMode) (identities : Option CaseIdentities)
    (registry : Registry) :
    SuiteOutcome → List String → Attempt SuiteError SuiteOutcome
  | outcome, [] => return outcome
  | outcome, case :: rest => do
    let outcome ← suite.visitCase mode identities registry outcome case
    suite.visitCases mode identities registry outcome rest

def run (suite : Suite) (mode : SuiteMode) : Attempt SuiteError SuiteOutcome := do
  let identities ← suite.identities
  let registry ← suite.registry
  let outcome ← suite.visitCases mode identities registry {} (← suite.cases)
  Session.log .info target <|
    s!"[snapshot] suite complete: cases={outcome.cases} documents={outcome.documents} " ++
      s!"written={outcome.written} mismatches={outcome.mismatches.length} " ++
      s!"failures={outcome.failures.length}"
  return outcome

end Suite

end SymbolIndex
