import SymbolIndex.Proofs.CommandLine.Preparing
import SymbolIndex.Proofs.CommandLine.Publishing
import SymbolIndex.Proofs.Index.Assembly

/-!
# Making an index

The command that makes an index finds out everything that it needs before it changes a
file, so one that fails on the way there changes none.  What it then saves is the index
of the files that are loaded and named, and its exit code tells whether anything failed,
a snapshot at the end included.
-/

namespace SymbolIndex

variable {world : World}

namespace Index

/-- Putting an index together comes to what assembling it comes to, whatever is answered. -/
theorem exists_runIn_buildSince (started : Nat) (context : ProjectNaming) (policy : FailurePolicy)
    (metadata : Metadata) (inputs : List IndexInput) (state : world.State) :
    ∃ elapsed, ((buildSince started context policy metadata inputs).runIn world state).1 =
      (assemble context policy metadata inputs).map (·, elapsed) := by
  rw [buildSince, Attempt.runIn_lift_bind]
  cases assemble context policy metadata inputs with
  | error error => exact ⟨0, rfl⟩
  | ok report =>
      dsimp only
      rw [Attempt.runIn_lift_bind, Attempt.runIn_lift_bind]
      exact ⟨_, rfl⟩

/-- Workers that do not start end an assembly. -/
theorem runIn_execute_of_refused {config : AssemblyConfig} {state timed after : world.State}
    {moment : Nat} {error : WorkersError}
    (time : Session.clock.runIn world state = (moment, timed))
    (refuse : (Session.startWorkers config.threads config.queueSize).runIn world timed =
      (.error error, after)) (context : ProjectNaming) (metadata : Metadata)
    (inputs : List IndexInput) :
    (execute config context metadata inputs).runIn world state =
      (.error (.workers error), after) := by
  rw [execute, Attempt.runIn_lift_bind, time, Attempt.runIn_bind, Attempt.runIn_ofSession, refuse]
  rfl

theorem exists_runIn_execute {config : AssemblyConfig} {state timed ready : world.State}
    {moment : Nat} (time : Session.clock.runIn world state = (moment, timed))
    (start : (Session.startWorkers config.threads config.queueSize).runIn world timed =
      (.ok (), ready)) (context : ProjectNaming) (metadata : Metadata)
    (inputs : List IndexInput) :
    ∃ elapsed, ((execute config context metadata inputs).runIn world state).1 =
      ((assemble context config.policy metadata inputs).map (·, elapsed)).mapError .assembly := by
  obtain ⟨elapsed, built⟩ :=
    exists_runIn_buildSince moment context config.policy metadata inputs ready
  refine ⟨elapsed, ?_⟩
  rw [execute, Attempt.runIn_lift_bind, time, Attempt.runIn_bind, Attempt.runIn_ofSession, start,
    ← built]
  exact congrArg Prod.fst (Attempt.runIn_mapError _ _ _)

end Index

namespace CommandLine

section Assembling

variable {settings : Settings} {given : IndexArguments} {context : ProjectNaming}
  {files : List AnalyzerOutput}

theorem runIn_configFor (settings : Settings) {state checked : world.State} {checks : Bool}
    (check : Session.checksOverflow.runIn world state = (checks, checked)) :
    (configFor settings).runIn world state =
      if checks = true ∧ 2 ^ 64 ≤ max settings.indexing.threads 1 * 16 then
        (.error (.stopped "attempt to multiply with overflow"), checked)
      else (.ok settings.assembly, checked) := by
  have large : AssemblyConfig.overflows settings.indexing.threads =
      decide (2 ^ 64 ≤ max settings.indexing.threads 1 * 16) := rfl
  rw [configFor, Attempt.runIn_lift_bind, check, large]
  simp only [Bool.and_eq_true, decide_eq_true_eq]
  split <;> rfl

/-- Putting an index together fails where there are no workers, and otherwise comes to what
assembling the index comes to. -/
theorem runIn_assembleFiles_cases (settings : Settings) (given : IndexArguments)
    (arguments : List String) (context : ProjectNaming) (files : List AnalyzerOutput)
    (state : world.State) :
    let assembled := (assembleFiles settings given arguments context files).runIn world state
    (Unstaffed world settings given files state ∧ ∃ error, assembled.1 = .error error) ∨
      Staffed world settings given files state ∧ ∃ metadata elapsed, assembled.1 =
        ((Index.assemble context settings.indexing.policy metadata
          (files.map .ofFile)).map (·, elapsed)).mapError (CommandError.failed ·.chain) := by
  intro assembled
  simp only [assembled]
  rcases warn : (warnOfNoFiles (given.analysisDirectory settings) files).runIn world state with
    ⟨_, warned⟩
  rcases check : Session.checksOverflow.runIn world warned with ⟨checks, checked⟩
  rw [assembleFiles, Attempt.runIn_lift_bind, warn, Attempt.runIn_bind,
    runIn_configFor settings check]
  by_cases stops : checks = true ∧ 2 ^ 64 ≤ max settings.indexing.threads 1 * 16
  · obtain ⟨rfl, large⟩ := stops
    rw [if_pos ⟨rfl, large⟩]
    exact .inl ⟨.overflow warn check large, _, rfl⟩
  rw [if_neg stops]
  rcases locate : Session.workingDirectory.runIn world checked with ⟨directory, located⟩
  rcases time : Session.clock.runIn world located with ⟨moment, asked⟩
  have asks : Asks world settings given files state asked :=
    .intro warn check (fun isTrue => Nat.lt_of_not_le fun large => stops ⟨isTrue, large⟩)
      locate time
  dsimp only
  rw [Attempt.runIn_lift_bind, locate, Attempt.runIn_mapError_bind]
  dsimp only
  generalize Index.metadataFor directory (given.root settings) arguments = metadata
  have request : askForWorkers settings =
      Session.startWorkers settings.assembly.threads settings.assembly.queueSize := rfl
  rcases start : (askForWorkers settings).runIn world asked with ⟨error | _, ready⟩
  · rw [Index.runIn_execute_of_refused time (request ▸ start)]
    exact .inl ⟨.refused asks start, _, rfl⟩
  · obtain ⟨elapsed, executed⟩ := Index.exists_runIn_execute time (request ▸ start) context
      metadata (files.map .ofFile)
    refine .inr ⟨.intro asks start, metadata, elapsed, ?_⟩
    have policy : settings.assembly.policy = settings.indexing.policy := rfl
    rw [Attempt.runIn_eq_mk executed, policy]
    cases Index.assemble context settings.indexing.policy metadata (files.map .ofFile) with
    | error error => rfl
    | ok report => exact congrArg Prod.fst (Attempt.runIn_lift_bind _ _ _)

end Assembling

section Preparing

variable {settings : Settings} {given : IndexArguments} {state known listed : world.State}
  {context : ProjectNaming} {files : List AnalyzerOutput}

theorem Identified.files_eq (identified : Identified world settings given state context known) :
    world.files known = world.files state := by
  obtain ⟨identify, register⟩ := identified
  exact (Attempt.files_eq_of_only (Registry.reads_load _) register).trans
    (Attempt.files_eq_of_only (ProjectIdentity.reads_resolve _ _ _) identify)

/-- What is left to do once the files of the analyzer are known. -/
def indexFiles (settings : Settings) (given : IndexArguments) (arguments : List String)
    (context : ProjectNaming) (files : List AnalyzerOutput) : Outcome := do
  let (report, elapsed) ← assembleFiles settings given arguments context files
  publishIndex settings given files.length report elapsed

/-- What is left to do once it is known in what the files are named. -/
def indexDirectory (settings : Settings) (given : IndexArguments) (arguments : List String)
    (context : ProjectNaming) : Outcome := do
  let files ← Attempt.mapError (CommandError.failed ·.chain)
    (AnalyzedFile.loadDirectory (given.analysisDirectory settings))
  indexFiles settings given arguments context files

theorem runIn_runIndex_cases (settings : Settings) (given : IndexArguments)
    (arguments : List String) (state : world.State) :
    let adjusted := adjust settings given.threads given.abortOnError
    (Unprepared world adjusted given state ∧
        (runIndex settings given arguments).FailsCleanly world state) ∨
      ∃ context known, Identified world adjusted given state context known ∧
        (runIndex settings given arguments).runIn world state =
          (indexDirectory adjusted given arguments context).runIn world known := by
  intro adjusted
  rw [Attempt.FailsCleanly, runIndex, Attempt.runIn_mapError_bind]
  rcases identify : (given.identify adjusted).runIn world state with ⟨error | identity, resolved⟩
  · exact .inl ⟨.identity identify, _, resolved, rfl,
      Attempt.files_eq_of_only (ProjectIdentity.reads_resolve _ _ _) identify⟩
  dsimp only
  rw [Attempt.runIn_mapError_bind]
  rcases register : (Registry.load (given.packageOrigin adjusted)).runIn world resolved with
    ⟨error | registry, known⟩
  · exact .inl ⟨.packages identify register, _, known, rfl,
      (Attempt.files_eq_of_only (Registry.reads_load _) register).trans
        (Attempt.files_eq_of_only (ProjectIdentity.reads_resolve _ _ _) identify)⟩
  · exact .inr ⟨_, known, .intro identify register, rfl⟩

theorem runIn_indexDirectory_cases (settings : Settings) (given : IndexArguments)
    (arguments : List String) (context : ProjectNaming) (known : world.State) :
    (world.CannotWalk (given.analysisDirectory settings) known ∧
        (indexDirectory settings given arguments context).FailsCleanly world known) ∨
      ∃ files listed, world.HasAnalyses (given.analysisDirectory settings) known files listed ∧
        world.files listed = world.files known ∧
        (indexDirectory settings given arguments context).runIn world known =
          (indexFiles settings given arguments context files).runIn world listed := by
  have only := (AnalyzedFile.isQuiet_loadDirectory (given.analysisDirectory settings)).reads
  rw [Attempt.FailsCleanly, indexDirectory, Attempt.runIn_mapError_bind]
  obtain ⟨files, listed, loaded, has⟩ | ⟨error, after, failed, cannot⟩ :=
    AnalyzedFile.runIn_loadDirectory_cases (given.analysisDirectory settings) known
  · rw [loaded]
    exact .inr ⟨files, listed, has, Attempt.files_eq_of_only only loaded, rfl⟩
  · rw [failed]
    exact .inl ⟨cannot, _, after, rfl, Attempt.files_eq_of_only only failed⟩

/-- The command fails and changes no file where something is missing that an index is made
from.  Otherwise it goes on with the files of the analyzer. -/
theorem runIn_runIndex (world : World) (settings : Settings) (given : IndexArguments)
    (arguments : List String) (state : world.State) :
    let adjusted := adjust settings given.threads given.abortOnError
    (Unprepared world adjusted given state →
      (runIndex settings given arguments).FailsCleanly world state) ∧
    (¬ Unprepared world adjusted given state → ∃ context files listed,
      Prepared world adjusted given state context files listed ∧
        world.files listed = world.files state ∧
        (runIndex settings given arguments).runIn world state =
          (indexFiles adjusted given arguments context files).runIn world listed) := by
  intro adjusted
  obtain ⟨unprepared, fails⟩ | ⟨context, known, identified, ran⟩ :=
    runIn_runIndex_cases settings given arguments state
  · exact ⟨fun _ => fails, absurd unprepared⟩
  have knownFiles := identified.files_eq
  obtain ⟨cannot, fails⟩ | ⟨files, listed, list, listedFiles, loaded⟩ :=
    runIn_indexDirectory_cases adjusted given arguments context known
  · exact ⟨fun _ => fails.of_eq ran knownFiles, absurd (.directory identified cannot)⟩
  obtain ⟨unstaffed, error, failed⟩ | ⟨staffed, -⟩ :=
    runIn_assembleFiles_cases adjusted given arguments context files listed
  · have fails := Attempt.failsCleanly_of_only
      (isQuiet_assembleFiles adjusted given arguments context files).reads
      (Attempt.runIn_eq_mk failed)
    exact ⟨fun _ => (fails.bind _).of_eq (ran.trans loaded) (listedFiles.trans knownFiles),
      absurd (.workers identified list unstaffed)⟩
  · have prepared : Prepared world adjusted given state context files listed :=
      .intro identified list staffed
    exact ⟨fun unprepared => absurd unprepared prepared.not_unprepared, fun _ =>
      ⟨context, files, listed, prepared, listedFiles.trans knownFiles, ran.trans loaded⟩⟩

end Preparing

/-- Whether the index of some files is put together, in which the documents of those that are
loaded and named are in the order of the files. -/
structure Assembled (world : World) (settings : Settings) (given : IndexArguments)
    (arguments : List String) (context : ProjectNaming) (files : List AnalyzerOutput)
    (listed : world.State) (report : AssemblyReport) (elapsed : Nat) (made : world.State) :
    Prop where
  ran : (assembleFiles settings given arguments context files).runIn world listed =
    (.ok (report, elapsed), made)
  kept : world.files made = world.files listed
  documents : report.index.documents =
    (files.map IndexInput.ofFile).filterMap (·.document? context)
  clean : report.failures = [] ↔ ¬ IndexInput.SomeFails context (files.map .ofFile)

section Finishing

variable {settings : Settings} {given : IndexArguments} {state listed : world.State}
  {context : ProjectNaming} {files : List AnalyzerOutput}

/-- Under the policy to abort, one file that fails ends the command before a file is
changed. -/
theorem Prepared.failsCleanly_indexFiles
    (prepared : Prepared world settings given state context files listed)
    (aborts : settings.indexing.policy = .abort)
    (fails : IndexInput.SomeFails context (files.map .ofFile)) (arguments : List String) :
    (indexFiles settings given arguments context files).FailsCleanly world listed := by
  obtain ⟨identified, list, staffed⟩ := prepared
  have only := (isQuiet_assembleFiles settings given arguments context files).reads
  obtain ⟨unstaffed, -⟩ | ⟨-, metadata, elapsed, ran⟩ :=
    runIn_assembleFiles_cases settings given arguments context files listed
  · exact absurd unstaffed (staffed.not_unstaffed (.refl _))
  · obtain ⟨error, failed⟩ := Index.exists_assemble_eq_error aborts fails metadata
    rw [failed] at ran
    exact (Attempt.failsCleanly_of_only only (Attempt.runIn_eq_mk ran)).bind _

theorem Prepared.exists_assembled
    (prepared : Prepared world settings given state context files listed)
    (continues : settings.indexing.policy = .abort →
      ¬ IndexInput.SomeFails context (files.map .ofFile)) (arguments : List String) :
    ∃ report elapsed made,
      Assembled world settings given arguments context files listed report elapsed made := by
  obtain ⟨identified, list, staffed⟩ := prepared
  have only := (isQuiet_assembleFiles settings given arguments context files).reads
  obtain ⟨unstaffed, -⟩ | ⟨-, metadata, elapsed, result⟩ :=
    runIn_assembleFiles_cases settings given arguments context files listed
  · exact absurd unstaffed (staffed.not_unstaffed (.refl _))
  · obtain ⟨report, assembled, documents, isClean⟩ := Index.assemble_eq_ok continues metadata
    rw [assembled] at result
    have ran := Attempt.runIn_eq_mk result
    exact ⟨report, elapsed, _, ran, Attempt.files_eq_of_only only ran, documents,
      List.isEmpty_iff.symm.trans isClean⟩

theorem Assembled.runIn_indexFiles {arguments : List String} {report : AssemblyReport}
    {elapsed : Nat} {made : world.State}
    (assembled : Assembled world settings given arguments context files listed report elapsed made) :
    (indexFiles settings given arguments context files).runIn world listed =
      (publishIndex settings given files.length report elapsed).runIn world made := by
  rw [indexFiles, Attempt.runIn_bind, assembled.ran]

end Finishing

/-- The exit code is zero exactly when a command found no problem, and what is printed at
the end changes no file. -/
theorem runIn_runInvocation (world : World) (state : world.State) (invocation : Invocation)
    (arguments : List String) :
    let loaded := (settingsFor invocation).runIn world state
    let filter := (logFilter loaded.1.logging).runIn world loaded.2
    let outcome := (runCommand loaded.1 arguments invocation.command).runIn
      (world.filtered filter.1) filter.2
    let ended := (runInvocation invocation arguments).runIn world state
    (ended.1 = 0 ↔ outcome.1 = .ok true) ∧ world.files ended.2 = world.files outcome.2 := by
  intro loaded filter outcome ended
  simp only [ended, runInvocation]
  rw [Session.runIn_bind, Session.runIn_bind, Session.runIn_bind, Session.runIn_withLogFilter]
  have ran : Session.runIn (world.filtered filter.1)
      (runCommand loaded.1 arguments invocation.command).run filter.2 = outcome := rfl
  rw [ran]
  rcases outcome with ⟨error | clean, after⟩
  · cases error <;> exact ⟨⟨nofun, nofun⟩, world.keeps _ after rfl⟩
  · cases clean
    · exact ⟨⟨nofun, nofun⟩, rfl⟩
    · exact ⟨⟨fun _ => rfl, fun _ => rfl⟩, rfl⟩

/-- What the command that makes an index comes to, whatever is answered to it.  Where the
project, its packages or the files of the analyzer cannot be found out, where there are no
workers, or where one of the files fails under the policy to abort, the exit code is not zero
and no file has changed.  Otherwise the index of the files that are loaded and named, in the
order of their paths, is put together and published. -/
theorem runInvocation_index (world : World) (state : world.State) (config : Option FilePath)
    (debug : Bool) (given : IndexArguments) (arguments : List String) :
    let invocation : Invocation := ⟨config, debug, .index given⟩
    let loaded := (settingsFor invocation).runIn world state
    let filter := (logFilter loaded.1.logging).runIn world loaded.2
    let shown := world.filtered filter.1
    let settings := adjust loaded.1 given.threads given.abortOnError
    let ended := (runInvocation invocation arguments).runIn world state
    (Unprepared shown settings given filter.2 →
      ended.1 ≠ 0 ∧ world.files ended.2 = world.files state) ∧
    (¬ Unprepared shown settings given filter.2 → ∃ context files listed,
      Prepared shown settings given filter.2 context files listed ∧
      (settings.indexing.policy = .abort → IndexInput.SomeFails context (files.map .ofFile) →
        ended.1 ≠ 0 ∧ world.files ended.2 = world.files state) ∧
      ((settings.indexing.policy = .abort → ¬ IndexInput.SomeFails context (files.map .ofFile)) →
        ∃ report elapsed made,
          Assembled shown settings given arguments context files listed report elapsed made ∧
          world.files made = world.files state ∧
          Published shown settings given files.length report elapsed made ended.1
            (world.files ended.2))) := by
  intro invocation loaded filter shown settings ended
  obtain ⟨exitCode, endedFiles⟩ := runIn_runInvocation world state invocation arguments
  have filterFiles : world.files filter.2 = world.files state :=
    (Session.files_runIn_of_only (isQuiet_logFilter _).reads loaded.2).trans
    (Session.files_runIn_of_only (isQuiet_settingsFor invocation).reads state)
  have unchanged (fails : (runIndex loaded.1 given arguments).FailsCleanly shown filter.2) :
      ended.1 ≠ 0 ∧ world.files ended.2 = world.files state := by
    obtain ⟨error, after, ran, kept⟩ := fails
    have failed : (runCommand loaded.1 arguments (.index given)).runIn shown filter.2 =
        (.error error, after) := ran
    rw [failed] at exitCode endedFiles
    exact ⟨fun zero => (nomatch exitCode.mp zero), endedFiles.trans (kept.trans filterFiles)⟩
  obtain ⟨failing, going⟩ := runIn_runIndex shown loaded.1 given arguments filter.2
  refine ⟨fun unprepared => unchanged (failing unprepared), fun notUnprepared => ?_⟩
  obtain ⟨context, files, listed, prepared, listedFiles, ran⟩ := going notUnprepared
  refine ⟨context, files, listed, prepared, fun aborts fails => unchanged <|
    (prepared.failsCleanly_indexFiles aborts fails arguments).of_eq ran listedFiles,
    fun continues => ?_⟩
  obtain ⟨report, elapsed, made, assembled⟩ := prepared.exists_assembled continues arguments
  refine ⟨report, elapsed, made, assembled,
    assembled.kept.trans (listedFiles.trans filterFiles), ?_⟩
  have published : (runCommand loaded.1 arguments (.index given)).runIn shown filter.2 =
      (publishIndex settings given files.length report elapsed).runIn shown made :=
    ran.trans assembled.runIn_indexFiles
  rw [published] at exitCode endedFiles
  have published := published_of_publishIndex settings given files.length report elapsed made exitCode
  rwa [← endedFiles] at published

/-- An index is asked for of the analyses in a directory, with its snapshots in `s`. -/
def indexArguments (analysis : FilePath) (abort : Bool) : IndexArguments where
  analysis := some analysis
  output := some ⟨"o/i"⟩
  projectRoot := some ⟨"r"⟩
  projectName := some "p"
  projectVersion := some "1"
  environment := some ⟨"e"⟩
  threads := none
  abortOnError := abort
  snapshotDirectory := some ⟨"s"⟩

/-- A machine with three analyses, one of which may be broken, and with a log of errors only. -/
def indexMachine (broken : Bool) : Machine where
  files :=
    let file (text : String) : FileNode := .file text.toUTF8
    ⟨.directory [
      ("a", .directory [
        ("b.json", file "[\"b\",\"python\",[[1,\"B\",\"type\"]],[[1,[0,0,1],[\"definition\"]]]]"),
        ("a-b.json", file (if broken then "x" else "[\"c\"]")),
        ("a", .directory [("z.json", file "[\"z\"]")])]),
      ("e", file "[]"), ("notes", file ""),
      ("r", .directory [("b", file "b"), ("c", file "c"), ("z", file "z")])], []⟩
  environment := [("RUST_LOG", "")]

/-- Directives without characters show errors only. -/
theorem runIn_logFilter_of_empty (settings : LoggingSettings) {machine : Machine}
    (empty : machine.environment.lookup "RUST_LOG" = some "") :
    (logFilter settings).runIn .ofMachine machine = (⟨[⟨none, 1⟩]⟩, machine) := by
  have parts : "".splitOn "," = [""] := by
    simp [String.splitOn, String.splitOnAux, String.Pos.Raw.extract]
  have read : LogFilter.read "" = (⟨[⟨none, 1⟩]⟩, []) := by
    simp [LogFilter.read, parts]
  have answered : Session.environment.runIn .ofMachine machine =
      (machine.environment, machine) := rfl
  rw [logFilter, Session.runIn_bind, answered]
  simp only [empty, Option.getD_some, read]
  rfl

/-- The world of a machine that reports errors only. -/
@[reducible]
def errorsOnly : World := World.ofMachine.filtered ⟨[⟨none, 1⟩]⟩

def indexSettings (abort : Bool) : Settings :=
  adjust (Settings.usual 2) none abort

/-- What the files of the machine are named in. -/
def indexNaming (abort : Bool) : ProjectNaming :=
  (indexArguments ⟨"a"⟩ abort).naming (indexSettings abort) ⟨"p", "1"⟩ (.ofPackages [])

/-- The analyses of the machine, in the order of their paths. -/
def indexedFiles (broken : Bool) : List AnalyzerOutput :=
  [⟨"a/a/z.json"⟩, ⟨"a/a-b.json"⟩, ⟨"a/b.json"⟩].map fun path =>
    ⟨path, (indexMachine broken).files.analysis path⟩

/-- What is reported of the machine unless a failure ends the command. -/
def indexReport (broken : Bool) : AssemblyReport where
  index := ⟨some { toolInfo := some ⟨"symdex", "0.3.1", []⟩
                   projectRoot := "file:///r", textDocumentEncoding := 1 },
    ⟨"python", "z", [], []⟩ :: (if broken then [] else [⟨"python", "c", [], []⟩]) ++
      [⟨"python", "b", [⟨[0, 0, 1], "scip-python pypi p 1 B#", 1⟩],
        [⟨"scip-python pypi p 1 B#", [], "B"⟩]⟩]⟩
  failures := if broken then [⟨"a/a-b.json", .load (.parse ⟨"a/a-b.json"⟩)⟩] else []
  indexed := if broken then 2 else 3

/-- The snapshot of a document of the machine. -/
def indexSnapshot : String :=
  "b\n# <^ definition scip-python pypi p 1 B#\n"

/-- What the stages of the command come to on the machine, one after the other. -/
structure IndexStages (broken abort : Bool) (start known : Machine) : Prop where
  loaded : (settingsFor ⟨none, false, .index (indexArguments ⟨"a"⟩ abort)⟩).runIn .ofMachine
    (indexMachine broken) = (Settings.usual 2, start)
  errors : start.environment.lookup "RUST_LOG" = some ""
  identified : Identified errorsOnly (indexSettings abort) (indexArguments ⟨"a"⟩ abort) start
    (indexNaming abort) known
  published : abort = false → ∃ made saved told written : Machine,
    (assembleFiles (indexSettings abort) (indexArguments ⟨"a"⟩ abort) [] (indexNaming abort)
      (indexedFiles broken)).runIn errorsOnly known = (.ok (indexReport broken, 0), made) ∧
    ((indexReport broken).index.save ⟨"o/i"⟩).runIn errorsOnly made = (.ok (), saved) ∧
    (Session.printLine (indexSummary (indexReport broken) 3 ⟨"o/i"⟩ 0)).runIn errorsOnly saved =
      ((), told) ∧
    (writeRenderings ⟨"r"⟩ ⟨"s"⟩ (indexReport broken).index.documents).runIn errorsOnly told =
      (.ok (indexReport broken).indexed, written) ∧
    (written.files.read ⟨"o/i"⟩).toOption.bind Index.ofBytes? = some (indexReport broken).index ∧
    (written.files.read ⟨"s/b"⟩).toOption.bind String.fromUTF8? = some indexSnapshot

theorem answers_of_indexMachine (broken abort : Bool) :
    let given := indexArguments ⟨"a"⟩ abort
    let settings := indexSettings abort
    let report := indexReport broken
    let loaded := (settingsFor ⟨none, false, .index given⟩).runIn .ofMachine (indexMachine broken)
    let identified := (given.identify settings).runIn errorsOnly loaded.2
    let registered := (Registry.load (given.packageOrigin settings)).runIn errorsOnly identified.2
    let assembled := (assembleFiles settings given [] (indexNaming abort)
      (indexedFiles broken)).runIn errorsOnly registered.2
    let saved := (report.index.save ⟨"o/i"⟩).runIn errorsOnly assembled.2
    let told := (Session.printLine (indexSummary report 3 ⟨"o/i"⟩ 0)).runIn errorsOnly saved.2
    let written := (writeRenderings ⟨"r"⟩ ⟨"s"⟩ report.index.documents).runIn errorsOnly told.2
    loaded.1 = Settings.usual 2 ∧ loaded.2.environment.lookup "RUST_LOG" = some "" ∧
      identified.1 = .ok ⟨"p", "1"⟩ ∧ registered.1 = .ok (.ofPackages []) ∧
      (abort = false → assembled.1 = .ok (report, 0) ∧ saved.1 = .ok () ∧
        written.1 = .ok report.indexed ∧
        (written.2.files.read ⟨"o/i"⟩).toOption.bind Index.ofBytes? = some report.index ∧
        (written.2.files.read ⟨"s/b"⟩).toOption.bind String.fromUTF8? = some indexSnapshot) := by
  -- Decided together, each stage is evaluated only once.
  cases broken <;> cases abort <;> decide +kernel

theorem exists_indexStages (broken abort : Bool) :
    ∃ start known, IndexStages broken abort start known := by
  obtain ⟨loaded, errors, identify, register, publish⟩ := answers_of_indexMachine broken abort
  refine ⟨_, _, Session.runIn_eq_mk loaded, errors,
    .intro (Attempt.runIn_eq_mk identify) (Attempt.runIn_eq_mk register), fun proceeds => ?_⟩
  obtain ⟨assembled, saved, written, index, snapshot⟩ := publish proceeds
  exact ⟨_, _, _, _, Attempt.runIn_eq_mk assembled, Attempt.runIn_eq_mk saved,
    Session.runIn_eq_mk rfl, Attempt.runIn_eq_mk written, index, snapshot⟩

theorem IndexStages.eq_of_prepared {broken abort : Bool} {start known : Machine}
    (stages : IndexStages broken abort start known) {context : ProjectNaming}
    {files : List AnalyzerOutput} {listed : Machine}
    (prepared : Prepared errorsOnly (indexSettings abort) (indexArguments ⟨"a"⟩ abort) start
      context files listed) :
    context = indexNaming abort ∧ files = indexedFiles broken ∧ listed = known := by
  obtain ⟨identified, list, -⟩ := prepared
  obtain ⟨rfl, rfl⟩ := identified.unique stages.identified
  obtain ⟨found, ordered, rfl⟩ := list.perm_of_machine
  have loaded : start.files = (indexMachine broken).files := by
    have quiet := (isQuiet_settingsFor ⟨none, false, .index (indexArguments ⟨"a"⟩ abort)⟩).reads
    have kept := @Session.files_runIn_of_only _ .ofMachine _ quiet (indexMachine broken)
    rwa [stages.loaded] at kept
  have kept := identified.files_eq
  change listed.files = start.files at kept
  rw [kept, loaded] at found
  exact ⟨rfl, FileTree.eq_map_of_before found ordered
    (by cases broken <;> cases abort <;> decide +kernel) (by decide +kernel), rfl⟩

theorem IndexStages.of_published {broken : Bool} {start known made : Machine} {exitCode : Nat}
    {last : FileTree} (stages : IndexStages broken false start known)
    (assembled : (assembleFiles (indexSettings false) (indexArguments ⟨"a"⟩ false) []
      (indexNaming false) (indexedFiles broken)).runIn errorsOnly known =
        (.ok (indexReport broken, 0), made))
    (published : Published errorsOnly (indexSettings false) (indexArguments ⟨"a"⟩ false) 3
      (indexReport broken) 0 made exitCode last) :
    (exitCode = 0 ↔ broken = false) ∧
      (last.read ⟨"o/i"⟩).toOption.bind Index.ofBytes? = some (indexReport broken).index ∧
      (last.read ⟨"s/b"⟩).toOption.bind String.fromUTF8? =
        some indexSnapshot := by
  obtain ⟨_, _, _, written, assembledToo, save, tell, write, read⟩ := stages.published rfl
  obtain ⟨-, rfl⟩ := Prod.mk.inj (assembledToo.symm.trans assembled)
  have clean : (indexReport broken).failures = [] ↔ broken = false := by
    cases broken <;> decide
  cases published with
  | unsaved cannot => exact absurd (Index.runIn_save_eq_ok.mp (congrArg Prod.fst save)) cannot
  | saved _ saveToo _ _ tellToo succeeds files =>
      obtain ⟨-, rfl⟩ := Prod.mk.inj (saveToo.symm.trans save)
      obtain ⟨-, rfl⟩ := Prod.mk.inj (tellToo.symm.trans tell)
      have all := (exists_writeRenderings_eq_ok _ _ _ _).mp ⟨_, _, write⟩
      have kept : last = written.files := files.trans (congrArg (fun ran => Machine.files ran.2) write)
      rw [kept]
      refine ⟨succeeds.trans ((and_iff_left ?_).trans clean), read⟩
      rintro _ ⟨⟩
      exact all

/-- An index is asked for with packages from a file that is not there. -/
def unlistedArguments : IndexArguments :=
  { indexArguments ⟨"a"⟩ false with environment := some ⟨"f"⟩ }

theorem exists_unprepared_indexMachine :
    ∃ start : Machine,
      (settingsFor ⟨none, false, .index unlistedArguments⟩).runIn .ofMachine (indexMachine false) =
        (Settings.usual 2, start) ∧
      start.environment.lookup "RUST_LOG" = some "" ∧
      Unprepared errorsOnly (indexSettings false) unlistedArguments start := by
  have answers :
      let loaded := (settingsFor ⟨none, false, .index unlistedArguments⟩).runIn .ofMachine
        (indexMachine false)
      let identified := (unlistedArguments.identify (indexSettings false)).runIn errorsOnly loaded.2
      let registered := (Registry.load (unlistedArguments.packageOrigin (indexSettings false))).runIn
        errorsOnly identified.2
      loaded.1 = Settings.usual 2 ∧ loaded.2.environment.lookup "RUST_LOG" = some "" ∧
        identified.1 = .ok ⟨"p", "1"⟩ ∧ registered.1.toOption = none := by
    decide +kernel
  obtain ⟨loaded, errors, identify, unavailable⟩ := answers
  obtain ⟨error, failed⟩ := Fallible.toOption_eq_none.mp unavailable
  exact ⟨_, Session.runIn_eq_mk loaded, errors,
    .packages (Attempt.runIn_eq_mk identify) (Attempt.runIn_eq_mk failed)⟩

theorem runInvocation_index_of_broken :
    let ended (broken abort : Bool) :=
      (runInvocation ⟨none, false, .index (indexArguments ⟨"a"⟩ abort)⟩ []).run
        (indexMachine broken)
    let saved (machine : Machine) := (machine.files.read ⟨"o/i"⟩).toOption.bind Index.ofBytes?
    let snapshot (machine : Machine) :=
      (machine.files.read ⟨"s/b"⟩).toOption.bind String.fromUTF8?
    let unlisted := (runInvocation ⟨none, false, .index unlistedArguments⟩ []).run
      (indexMachine false)
    (unlisted.1 ≠ 0 ∧ unlisted.2.files = (indexMachine false).files) ∧
    ((ended true true).1 ≠ 0 ∧ (ended true true).2.files = (indexMachine true).files) ∧
    ((ended true false).1 ≠ 0 ∧ saved (ended true false).2 = some (indexReport true).index ∧
      snapshot (ended true false).2 = some indexSnapshot) ∧
    ((ended false false).1 = 0 ∧ saved (ended false false).2 = some (indexReport false).index ∧
      snapshot (ended false false).2 = some indexSnapshot) := by
  intro ended saved snapshot unlisted
  have unprepared : unlisted.1 ≠ 0 ∧ unlisted.2.files = (indexMachine false).files := by
    obtain ⟨start, loaded, errors, isUnprepared⟩ := exists_unprepared_indexMachine
    have index := (runInvocation_index .ofMachine (indexMachine false) none false
      unlistedArguments []).1
    rw [loaded] at index
    dsimp only at index
    rw [runIn_logFilter_of_empty _ errors, Session.runIn_ofMachine] at index
    dsimp only at index
    simp only [unlisted]
    exact index isUnprepared
  have index {broken abort : Bool} {start known : Machine}
      (stages : IndexStages broken abort start known) := by
    have index := (runInvocation_index .ofMachine (indexMachine broken) none false
      (indexArguments ⟨"a"⟩ abort) []).2
    rw [stages.loaded] at index
    dsimp only at index
    rw [runIn_logFilter_of_empty _ stages.errors, Session.runIn_ofMachine] at index
    dsimp only at index
    exact index (not_unprepared_of_machine stages.identified (by cases abort <;> decide))
  have goes (broken : Bool) : ((ended broken false).1 = 0 ↔ broken = false) ∧
      saved (ended broken false).2 = some (indexReport broken).index ∧
      snapshot (ended broken false).2 = some indexSnapshot := by
    obtain ⟨start, known, stages⟩ := exists_indexStages broken false
    obtain ⟨context, files, listed, prepared, -, continued⟩ := index stages
    obtain ⟨rfl, rfl, rfl⟩ := stages.eq_of_prepared prepared
    obtain ⟨report, elapsed, made, assembled, -, published⟩ := continued nofun
    obtain ⟨_, _, _, _, assembledToo, -⟩ := stages.published rfl
    obtain ⟨same, rfl⟩ := Prod.mk.inj (assembled.ran.symm.trans assembledToo)
    obtain ⟨rfl, rfl⟩ := Prod.mk.inj (Except.ok.inj same)
    simp only [ended, saved, snapshot]
    exact stages.of_published assembledToo published
  have stops : (ended true true).1 ≠ 0 ∧ (ended true true).2.files = (indexMachine true).files := by
    obtain ⟨start, known, stages⟩ := exists_indexStages true true
    obtain ⟨context, files, listed, prepared, aborts, -⟩ := index stages
    obtain ⟨rfl, rfl, rfl⟩ := stages.eq_of_prepared prepared
    have unread : (indexMachine true).files.analysis ⟨"a/a-b.json"⟩ =
      .error (.parse ⟨"a/a-b.json"⟩) := by decide +kernel
    have fails : (IndexInput.ofFile ⟨⟨"a/a-b.json"⟩,
        (indexMachine true).files.analysis ⟨"a/a-b.json"⟩⟩).name (indexNaming true) =
          .error (.load (.parse ⟨"a/a-b.json"⟩)) := by
      rw [unread]
      rfl
    simp only [ended]
    exact aborts rfl ⟨_, List.mem_cons_of_mem _ List.mem_cons_self, _, fails⟩
  obtain ⟨brokenExit, brokenIndex⟩ := goes true
  obtain ⟨cleanExit, cleanIndex⟩ := goes false
  exact ⟨unprepared, stops, ⟨fun zero => (nomatch brokenExit.mp zero), brokenIndex⟩,
    cleanExit.mpr rfl, cleanIndex⟩

/-- A file cannot be read as a directory, and an index is made without analyses all the same. -/
theorem runInvocation_index_of_unreadable :
    let ended := (runInvocation ⟨none, false, .index (indexArguments ⟨"notes/"⟩ false)⟩ []).run
      (indexMachine false)
    (indexMachine false).files.kind? ⟨"notes"⟩ = some .file ∧
      (indexMachine false).files.walk ⟨"notes/"⟩ = .error .notDirectory ∧ ended.1 = 0 ∧
      (ended.2.files.read ⟨"o/i"⟩).toOption.bind Index.ofBytes? =
        some ⟨some { toolInfo := some ⟨"symdex", "0.3.1", []⟩
                     projectRoot := "file:///r", textDocumentEncoding := 1 }, []⟩ := by
  intro ended
  obtain ⟨exitCode, files⟩ := runIn_runInvocation .ofMachine (indexMachine false)
    ⟨none, false, .index (indexArguments ⟨"notes/"⟩ false)⟩ []
  rw [runIn_logFilter_of_empty _ (by decide +kernel)] at exitCode files
  rw [Session.runIn_ofMachine] at exitCode files
  refine ⟨by decide +kernel, by decide +kernel, exitCode.mpr (by decide +kernel), ?_⟩
  rw [show ended.2.files = _ from files]
  decide +kernel

end CommandLine

end SymbolIndex
