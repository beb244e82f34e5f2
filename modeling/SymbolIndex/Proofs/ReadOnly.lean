import SymbolIndex.CommandLine.Run
import SymbolIndex.Proofs.Machine.Reports

/-!
# What only reads

Loading settings, finding out what a project is called, loading packages and analyses,
putting an index together and checking snapshots change no file, whatever is answered.
Programs are started only to ask for a revision and for packages.
-/

namespace SymbolIndex

open Request (isQuiet looks reads reads_of_isQuiet)

namespace Session

theorem isQuiet_log (level : LogLevel) (target message : String) :
    (log level target message).Only isQuiet :=
  only_request rfl

theorem isQuiet_readText (path : FilePath) : (readText path).Only isQuiet :=
  only_readText rfl

end Session

namespace Attempt

variable {δ ε : Type}

theorem isQuiet_log (level : LogLevel) (target message : String) :
    Only isQuiet (liftM (Session.log level target message) : Attempt ε Unit) :=
  only_lift (Session.isQuiet_log level target message)

theorem isQuiet_readText (wrap : FileError → ε) (path : FilePath) :
    Only isQuiet (ofSession wrap (Session.readText path)) :=
  only_ofSession wrap (Session.isQuiet_readText path)

end Attempt

namespace ProjectIdentity

theorem isQuiet_loadManifest (root : FilePath) :
    Attempt.Only isQuiet (Manifest.load root) := by
  refine Attempt.only_bind (Attempt.only_lift (Session.isQuiet_readText _)) fun result => ?_
  split
  · exact Attempt.only_pure _
  · split
    · exact Attempt.only_pure _
    · exact Attempt.only_throw _

theorem reads_resolveVersion (root : FilePath) (known : Option String) :
    Attempt.Only reads (resolveVersion root known) := by
  unfold resolveVersion
  split
  · exact Attempt.only_pure _
  · refine Attempt.only_bind (Attempt.only_lift ?_) fun found => ?_
    · refine Session.only_bind (Session.only_request rfl) fun ran => ?_
      split
      · exact Session.only_pure _
      · dsimp only
        split <;> exact Session.only_pure _
    · split
      · exact Attempt.only_pure _
      · exact Attempt.only_throw _

theorem reads_resolve (root : FilePath) (name version : Option String) :
    Attempt.Only reads (resolve root name version) := by
  refine Attempt.only_bind (isQuiet_loadManifest root).reads
    fun manifest => ?_
  split
  · exact Attempt.only_throw _
  · refine Attempt.only_bind (reads_resolveVersion _ _) fun known => ?_
    exact Attempt.only_bind (Attempt.isQuiet_log _ _ _).reads
      fun _ => Attempt.only_pure _

end ProjectIdentity

namespace LiveEnvironment

variable (environment : LiveEnvironment)

theorem reads_query (command : String) (arguments : List String) :
    Attempt.Only reads (environment.query command arguments) := by
  refine Attempt.only_bind (Attempt.only_lift (Session.only_request rfl)) fun ran => ?_
  split
  · exact Attempt.only_throw _
  · split
    · exact Attempt.only_pure _
    · exact Attempt.only_throw _

theorem reads_showBatches (batches : List (List String)) :
    Attempt.Only reads (environment.showBatches batches) := by
  induction batches with
  | nil => exact Attempt.only_pure _
  | cons batch rest ih =>
      exact Attempt.only_bind (reads_query environment _ _) fun _ =>
        Attempt.only_bind ih fun _ => Attempt.only_pure _

theorem reads_load : Attempt.Only reads environment.load := by
  refine Attempt.only_bind (reads_query environment _ _) fun listed => ?_
  split
  · exact Attempt.only_throw _
  · refine Attempt.only_bind (reads_showBatches environment _) fun packages => ?_
    exact Attempt.only_bind (Attempt.isQuiet_log _ _ _).reads
      fun _ => Attempt.only_pure _

end LiveEnvironment

namespace PackageCache

theorem isQuiet_load (path : FilePath) : Attempt.Only isQuiet (load path) := by
  refine Attempt.only_bind (Attempt.isQuiet_readText _ _) fun text => ?_
  split
  · exact Attempt.only_pure _
  · exact Attempt.only_throw _

end PackageCache

namespace Registry

variable {allowed : Request → Bool}

/-- A registry asks for what its packages are loaded by, and reports. -/
theorem only_load {source : PackageOrigin} (more : ∀ request, isQuiet request = true →
      allowed request = true) (loads : Attempt.Only allowed source.load) :
    Attempt.Only allowed (load source) :=
  Attempt.only_bind (Attempt.only_mapError _ loads) fun _ =>
    Attempt.only_bind ((Attempt.isQuiet_log _ _ _).mono more) fun _ => Attempt.only_pure _

theorem reads_load (source : PackageOrigin) : Attempt.Only reads (load source) := by
  refine only_load (fun _ => reads_of_isQuiet) ?_
  cases source with
  | cache path => exact (PackageCache.isQuiet_load path).reads
  | fixed packages => exact Attempt.only_pure _
  | live environment => exact LiveEnvironment.reads_load environment

end Registry

namespace AnalyzedFile

theorem isQuiet_load (path : FilePath) : Attempt.Only isQuiet (load path) := by
  refine Attempt.only_bind (Attempt.isQuiet_readText _ _) fun text => ?_
  split
  · exact Attempt.only_pure _
  · exact Attempt.only_throw _

theorem isQuiet_loadEntry (path : FilePath) (kind : Except FileError EntryKind) :
    (loadEntry path kind).Only isQuiet := by
  unfold loadEntry
  split
  · exact Session.only_pure _
  · split
    · exact Session.only_bind (isQuiet_load path) fun _ => Session.only_pure _
    · exact Session.only_pure _
  · exact Session.only_pure _

theorem isQuiet_loadEntries (entries : List (FilePath × Except FileError EntryKind)) :
    (loadEntries entries).Only isQuiet := by
  induction entries with
  | nil => exact Session.only_pure _
  | cons entry rest ih =>
      exact Session.only_bind (isQuiet_loadEntry entry.1 entry.2) fun _ =>
        Session.only_bind ih fun _ => Session.only_pure _

theorem isQuiet_loadDirectory (dir : FilePath) : Attempt.Only isQuiet (loadDirectory dir) := by
  refine Attempt.only_bind (Attempt.only_lift (Session.only_pathExists rfl)) fun there => ?_
  split
  · refine Attempt.only_bind (Attempt.only_ofSession _ (Session.only_request rfl)) fun entries => ?_
    exact Attempt.only_bind (Attempt.only_lift (isQuiet_loadEntries entries)) fun _ =>
      Attempt.only_pure _
  · exact Attempt.only_pure _

end AnalyzedFile

namespace Index

theorem isQuiet_reportNaming (context : ProjectNaming) (policy : FailurePolicy)
    (inputs : List IndexInput) : (reportNaming context policy inputs).Only isQuiet := by
  induction inputs with
  | nil => exact Session.only_pure _
  | cons input rest ih =>
      refine Session.only_bind (Session.only_request rfl) fun _ => ?_
      split
      · exact Session.only_pure _
      · exact ih

theorem isQuiet_buildSince (started : Nat) (context : ProjectNaming) (policy : FailurePolicy)
    (metadata : Metadata) (inputs : List IndexInput) :
    Attempt.Only isQuiet (buildSince started context policy metadata inputs) := by
  refine Attempt.only_bind (Attempt.only_lift (isQuiet_reportNaming context policy inputs))
    fun _ => ?_
  split
  · exact Attempt.only_throw _
  · refine Attempt.only_bind (Attempt.only_lift (Session.only_request rfl)) fun _ => ?_
    exact Attempt.only_bind (Attempt.isQuiet_log _ _ _) fun _ => Attempt.only_pure _

theorem isQuiet_build (context : ProjectNaming) (policy : FailurePolicy) (metadata : Metadata)
    (inputs : List IndexInput) :
    Attempt.Only isQuiet (build context policy metadata inputs) :=
  Attempt.only_bind (Attempt.only_lift (Session.only_request rfl)) fun _ =>
    isQuiet_buildSince _ _ _ _ _

theorem isQuiet_execute (config : AssemblyConfig) (context : ProjectNaming) (metadata : Metadata)
    (inputs : List IndexInput) :
    Attempt.Only isQuiet (execute config context metadata inputs) := by
  refine Attempt.only_bind (Attempt.only_lift (Session.only_request rfl)) fun _ => ?_
  refine Attempt.only_bind (Attempt.only_ofSession _ (Session.only_request rfl)) fun _ => ?_
  exact Attempt.only_mapError _ (isQuiet_buildSince _ _ _ _ _)

end Index

namespace Golden

theorem isQuiet_check (path : FilePath) (snapshot : String) :
    Attempt.Only isQuiet (check path snapshot) := by
  refine Attempt.only_bind ?_ fun expected => ?_
  · refine Attempt.only_bind (Attempt.only_lift (Session.isQuiet_readText path)) fun result => ?_
    split
    · exact Attempt.only_pure _
    · exact Attempt.only_pure _
    · exact Attempt.only_throw _
  · split <;> exact Attempt.only_pure _

end Golden

namespace Suite

variable (suite : Suite)

theorem isQuiet_cases : Attempt.Only isQuiet suite.cases := by
  unfold cases
  split
  · exact Attempt.only_pure _
  · exact Attempt.only_bind (Attempt.only_ofSession _ (Session.only_request rfl)) fun _ =>
      Attempt.only_pure _

theorem isQuiet_identities : Attempt.Only isQuiet suite.identities := by
  refine Attempt.only_bind (Attempt.only_lift (Session.only_pathExists rfl)) fun there => ?_
  split
  · refine Attempt.only_bind (Attempt.isQuiet_readText _ _) fun text => ?_
    split
    · exact Attempt.only_pure _
    · exact Attempt.only_throw _
  · exact Attempt.only_pure _

theorem isQuiet_registry : Attempt.Only isQuiet suite.registry := by
  refine Attempt.only_bind (Attempt.only_lift (Session.only_pathExists rfl)) fun there => ?_
  refine Attempt.only_mapError _ (Registry.only_load (fun _ quiet => quiet) ?_)
  split
  · exact PackageCache.isQuiet_load _
  · exact Attempt.only_pure _

theorem reads_identityOf (identities : Option CaseIdentities) (case : String) :
    Attempt.Only reads (suite.identityOf identities case) := by
  unfold identityOf
  split
  · exact Attempt.only_pure _
  · exact Attempt.only_mapError _ (ProjectIdentity.reads_resolve _ _ _)

theorem reads_assemble (identities : Option CaseIdentities) (registry : Registry)
    (case : String) : Attempt.Only reads (suite.assemble identities registry case) := by
  refine Attempt.only_bind (reads_identityOf suite identities case) fun identity => ?_
  refine Attempt.Only.reads ?_
  refine Attempt.only_bind (Attempt.only_mapError _ (AnalyzedFile.isQuiet_loadDirectory _))
    fun files => ?_
  refine Attempt.only_bind (Attempt.only_lift (Session.only_request rfl)) fun directory => ?_
  exact Attempt.only_bind (Attempt.only_mapError _ (Index.isQuiet_build _ _ _ _)) fun _ =>
    Attempt.only_pure _

theorem isQuiet_snapshot (case : String) (document : Document) :
    Attempt.Only isQuiet (suite.snapshot case document) :=
  Attempt.only_bind (Attempt.isQuiet_readText _ _) fun _ => Attempt.only_pure _

theorem isQuiet_runDocument_check (case : String) (outcome : SuiteOutcome) (document : Document) :
    Attempt.Only isQuiet (suite.runDocument .check case outcome document) :=
  Attempt.only_bind (isQuiet_snapshot suite case document) fun _ =>
    Attempt.only_bind (Attempt.only_mapError _ (Golden.isQuiet_check _ _)) fun _ =>
      Attempt.only_pure _

theorem isQuiet_runDocuments_check (case : String) (outcome : SuiteOutcome)
    (documents : List Document) :
    Attempt.Only isQuiet (suite.runDocuments .check case outcome documents) := by
  induction documents generalizing outcome with
  | nil => exact Attempt.only_pure _
  | cons document rest ih =>
      rw [runDocuments]
      split
      · exact Attempt.only_bind (Attempt.isQuiet_log _ _ _) fun _ => ih outcome
      · exact Attempt.only_bind (isQuiet_runDocument_check suite case outcome document) ih

theorem reads_visitCase_check (identities : Option CaseIdentities) (registry : Registry)
    (outcome : SuiteOutcome) (case : String) :
    Attempt.Only reads (suite.visitCase .check identities registry outcome case) := by
  refine Attempt.only_bind (reads_assemble suite identities registry case) fun report => ?_
  refine Attempt.Only.reads ?_
  exact Attempt.only_bind (isQuiet_runDocuments_check suite case _ _) fun _ => Attempt.only_pure _

theorem reads_visitCases_check (identities : Option CaseIdentities) (registry : Registry)
    (outcome : SuiteOutcome) (cases : List String) :
    Attempt.Only reads (suite.visitCases .check identities registry outcome cases) := by
  induction cases generalizing outcome with
  | nil => exact Attempt.only_pure _
  | cons case rest ih =>
      exact Attempt.only_bind (reads_visitCase_check suite identities registry outcome case) ih

/-- A check asks for no change to any file. -/
theorem reads_run_check : Attempt.Only reads (suite.run .check) := by
  refine Attempt.only_bind (isQuiet_identities suite).reads
    fun identities => ?_
  refine Attempt.only_bind (isQuiet_registry suite).reads
    fun registry => ?_
  refine Attempt.only_bind (isQuiet_cases suite).reads fun cases => ?_
  refine Attempt.only_bind (reads_visitCases_check suite identities registry {} cases)
    fun outcome => ?_
  exact Attempt.only_bind (Attempt.isQuiet_log _ _ _).reads
    fun _ => Attempt.only_pure _

end Suite

namespace Settings

theorem looks_firstFile (paths : List FilePath) : (firstFile paths).Only looks := by
  induction paths with
  | nil => exact Session.only_pure _
  | cons path rest ih =>
      refine Session.only_bind (Session.only_bind (Session.only_request rfl) fun _ =>
        Session.only_pure _) fun found => ?_
      split
      · exact Session.only_pure _
      · exact ih

theorem looks_findFile (path : FilePath) : (findFile path).Only looks := by
  unfold findFile
  split
  · exact looks_firstFile _
  · exact Session.only_bind (Session.only_request rfl) fun _ => looks_firstFile _

theorem looks_fileSettings (path : FilePath) : Attempt.Only looks (fileSettings path) := by
  refine Attempt.only_bind (Attempt.only_lift (looks_findFile path)) fun found => ?_
  split
  · exact Attempt.only_pure _
  · refine Attempt.only_bind (Attempt.only_lift (Session.only_request rfl)) fun _ => ?_
    refine Attempt.only_bind (Attempt.only_ofSession _ (Session.only_readText rfl)) fun text => ?_
    split
    · exact Attempt.only_pure _
    · exact Attempt.only_throw _

theorem isQuiet_loadFile (path : FilePath) : Attempt.Only isQuiet (loadFile path) := by
  refine Attempt.only_bind (looks_fileSettings path).isQuiet fun file => ?_
  refine Attempt.only_bind (Attempt.only_lift (Session.only_request rfl)) fun _ => ?_
  refine Attempt.only_bind (Attempt.only_lift (Session.only_request rfl)) fun environment => ?_
  split
  · exact Attempt.only_pure _
  · exact Attempt.only_throw _

theorem looks_firstWorkspace (dirs : List FilePath) : (firstWorkspace dirs).Only looks := by
  induction dirs with
  | nil => exact Session.only_pure _
  | cons dir rest ih =>
      refine Session.only_bind (Session.only_bind (Session.only_request rfl) fun _ =>
        Session.only_pure _) fun found => ?_
      split
      · exact Session.only_pure _
      · exact ih

theorem isQuiet_load : Attempt.Only isQuiet load := by
  refine Attempt.only_bind (Attempt.only_lift (Session.only_bind (Session.only_request rfl)
    fun _ => (looks_firstWorkspace _).isQuiet)) fun root => ?_
  exact Attempt.only_bind (isQuiet_loadFile _) fun _ => Attempt.only_pure _

end Settings

namespace CommandLine

theorem isQuiet_printFailures (failures : List UnindexedFile) :
    (printFailures failures).Only isQuiet := by
  induction failures with
  | nil => exact Session.only_pure _
  | cons failure rest ih => exact Session.only_bind (Session.only_request rfl) fun _ => ih

theorem isQuiet_settingsFor (invocation : Invocation) :
    (settingsFor invocation).Only isQuiet := by
  have chosen (settings : Settings) : Session.Only isQuiet
      (if invocation.debug then
        pure { settings with logging := { settings.logging with default := "debug" } }
      else pure settings) := by
    split <;> exact Session.only_pure _
  unfold settingsFor
  dsimp only
  split
  case' h_1 => refine Session.only_bind (Settings.isQuiet_loadFile _) fun loaded => ?_
  case' h_2 => refine Session.only_bind Settings.isQuiet_load fun loaded => ?_
  all_goals
    split
    · exact chosen _
    · refine Session.only_bind (Session.only_request rfl) fun _ => ?_
      exact Session.only_bind (Session.only_request rfl) fun _ => chosen _

theorem isQuiet_printRefused (refused : List (String × LogDirectiveError)) :
    (logFilter.printRefused refused).Only isQuiet := by
  induction refused with
  | nil => exact Session.only_pure _
  | cons directive rest ih => exact Session.only_bind (Session.only_request rfl) fun _ => ih

theorem isQuiet_logFilter (settings : LoggingSettings) : (logFilter settings).Only isQuiet := by
  refine Session.only_bind (Session.only_request rfl) fun environment => ?_
  exact Session.only_bind (isQuiet_printRefused _) fun _ => Session.only_pure _

theorem isQuiet_warnOfNoFiles (dir : FilePath) (files : List AnalyzerOutput) :
    (warnOfNoFiles dir files).Only isQuiet := by
  unfold warnOfNoFiles
  split
  · exact Session.only_request rfl
  · exact Session.only_pure _

theorem isQuiet_configFor (settings : Settings) : Attempt.Only isQuiet (configFor settings) := by
  refine Attempt.only_bind (Attempt.only_lift (Session.only_request rfl)) fun checks => ?_
  split
  · exact Attempt.only_throw _
  · exact Attempt.only_pure _

theorem isQuiet_assembleFiles (settings : Settings) (given : IndexArguments)
    (arguments : List String) (context : ProjectNaming) (files : List AnalyzerOutput) :
    Attempt.Only isQuiet (assembleFiles settings given arguments context files) := by
  refine Attempt.only_bind (Attempt.only_lift (isQuiet_warnOfNoFiles _ files)) fun _ => ?_
  refine Attempt.only_bind (isQuiet_configFor settings) fun config => ?_
  refine Attempt.only_bind (Attempt.only_lift (Session.only_request rfl)) fun _ => ?_
  refine Attempt.only_bind (Attempt.only_mapError _ (Index.isQuiet_execute _ _ _ _)) fun built => ?_
  exact Attempt.only_bind (Attempt.only_lift (isQuiet_printFailures _)) fun _ =>
    Attempt.only_pure _

end CommandLine

end SymbolIndex
