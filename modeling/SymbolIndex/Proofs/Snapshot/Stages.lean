import SymbolIndex.Proofs.Analysis.Loading
import SymbolIndex.Proofs.ReadOnly
import SymbolIndex.Proofs.Snapshot.Cases

/-!
# The stages of a run

What comes before the documents of a case leaves nothing but reports behind when the
identity of the case is known.  A run comes to what its stages come to, each of them on
the machine as it was.
-/

namespace SymbolIndex

open Request (isQuiet)

namespace Index

theorem build_of_assembled {context : ProjectNaming} {policy : FailurePolicy}
    {metadata : Metadata} {inputs : List IndexInput} {report : AssemblyReport}
    (assembled : assemble context policy metadata inputs = .ok report) (machine : Machine) :
    ∃ elapsed, ((build context policy metadata inputs).runOn machine).1 =
      .ok (report, elapsed) := by
  simp only [build, buildSince, assembled, Attempt.runOn_bind, Attempt.runOn_lift, Attempt.runOn_pure]
  exact ⟨_, rfl⟩

end Index

namespace Suite

/-- What the files of a case are named in. -/
def contextOf (suite : Suite) (case : String) (identity : ProjectIdentity)
    (registry : Registry) : ProjectNaming where
  ecosystem := suite.ecosystem
  manager := suite.manager
  project := identity
  projectRoot := suite.inputOf case
  registry := registry

variable {suite : Suite} {mode : SuiteMode} {machine : Machine} {case : String}
  {registry : Registry}

/-- A run visits the cases with the identities and the packages that the files tell. -/
theorem sameOn_run {identities : Option CaseIdentities} {names : List String}
    (identify : (suite.identities.runOn machine).1 = .ok identities)
    (register : (suite.registry.runOn machine).1 = .ok registry)
    (list : (suite.cases.runOn machine).1 = .ok names) :
    Attempt.SameOn machine (suite.run mode)
      (suite.visitCases mode identities registry {} names) := by
  refine (Attempt.sameOn_bind_of_quiet (isQuiet_identities suite) identify).trans ?_
  refine (Attempt.sameOn_bind_of_quiet (isQuiet_registry suite) register).trans ?_
  refine (Attempt.sameOn_bind_of_quiet (isQuiet_cases suite) list).trans ?_
  exact Attempt.sameOn_bind_of_idle machine fun _ _ => ⟨rfl, rfl⟩

/-- Assembling a case whose identity is known only reports. -/
theorem isQuiet_assemble_of_known (suite : Suite) (known : CaseIdentities) (registry : Registry)
    (case : String) : Attempt.Only isQuiet (suite.assemble (some known) registry case) := by
  refine Attempt.only_bind (Attempt.only_pure _) fun identity => ?_
  refine Attempt.only_bind (Attempt.only_mapError _ (AnalyzedFile.isQuiet_loadDirectory _))
    fun files => ?_
  refine Attempt.only_bind (Attempt.only_lift (Session.only_request rfl)) fun directory => ?_
  exact Attempt.only_bind (Attempt.only_mapError _ (Index.isQuiet_build _ _ _ _)) fun _ =>
    Attempt.only_pure _

/-- What is left to do of a visit to a case when it is known in what its files are named. -/
def visitInputs (suite : Suite) (mode : SuiteMode) (case : String) (context : ProjectNaming)
    (outcome : SuiteOutcome) (inputs : List IndexInput) : Attempt SuiteError SuiteOutcome := do
  let judged ← suite.runDocuments mode case
    { outcome with failures := outcome.failures ++ inputs.filterMap (·.failure? context) }
    (inputs.filterMap (·.document? context))
  return { judged with cases := judged.cases + 1 }

/-- A visit to a case whose identity is known goes through the documents of the analyses
that the files tell. -/
theorem sameOn_visitCase_of_known (proceeds : suite.policy = .proceed) (known : CaseIdentities)
    (registry : Registry) (outcome : SuiteOutcome) (machine : Machine) :
    Attempt.SameOn machine (suite.visitCase mode (some known) registry outcome case)
      (suite.visitInputs mode case (suite.contextOf case (known.identityOf case) registry) outcome
        ((machine.files.analyses (suite.analysisOf case)).map .ofFile)) := by
  set context := suite.contextOf case (known.identityOf case) registry
  set inputs := (machine.files.analyses (suite.analysisOf case)).map IndexInput.ofFile
  let metadata := Index.metadataFor machine.files.workingPath (suite.inputOf case)
    ["snapshot", case]
  let documents := inputs.filterMap (·.document? context)
  let report : AssemblyReport :=
    ⟨⟨some metadata, documents⟩, inputs.filterMap (·.failure? context), documents.length⟩
  have assembled : Index.assemble context suite.policy metadata inputs = .ok report := by
    rw [proceeds, Index.assemble_eq_ofInputs]
    rfl
  obtain ⟨elapsed, built⟩ := Index.build_of_assembled assembled machine
  have assemble : ((suite.assemble (some known) registry case).runOn machine).1 = .ok report := by
    have load := Attempt.only_mapError SuiteError.analysis
      (AnalyzedFile.isQuiet_loadDirectory (suite.analysisOf case))
    have loaded : ((Attempt.mapError SuiteError.analysis
        (AnalyzedFile.loadDirectory (suite.analysisOf case))).runOn machine).1 =
          .ok (machine.files.analyses (suite.analysisOf case)) := by
      rw [Attempt.runOn_mapError, AnalyzedFile.runOn_loadDirectory]
      rfl
    have build := Attempt.only_mapError SuiteError.assembly
      (Index.isQuiet_build context suite.policy metadata inputs)
    have named : ((Attempt.mapError SuiteError.assembly
        (Index.build context suite.policy metadata inputs)).runOn machine).1 =
          .ok (report, elapsed) := by
      rw [Attempt.runOn_mapError, built]
      rfl
    refine (Attempt.sameOn_bind_of_quiet (Attempt.only_pure _) rfl).1.trans ?_
    refine (Attempt.sameOn_bind_of_quiet load loaded).1.trans ?_
    refine (Attempt.sameOn_bind_of_quiet (Attempt.only_lift (Session.only_request rfl))
      rfl).1.trans ?_
    exact (Attempt.sameOn_bind_of_quiet build named).1
  exact Attempt.sameOn_bind_of_quiet (isQuiet_assemble_of_known suite known registry case) assemble

/-- A check of some cases whose identities are known goes on after the first of them as if
nothing had been done. -/
theorem result_visitCases_check_cons (proceeds : suite.policy = .proceed) (known : CaseIdentities)
    (registry : Registry) (outcome : SuiteOutcome) (rest : List String) (machine : Machine) :
    ((suite.visitCases .check (some known) registry outcome (case :: rest)).runOn machine).1 =
      (((suite.visitInputs .check case (suite.contextOf case (known.identityOf case) registry)
        outcome ((machine.files.analyses (suite.analysisOf case)).map .ofFile)).runOn machine).1 >>=
        fun outcome =>
          ((suite.visitCases .check (some known) registry outcome rest).runOn machine).1) := by
  have quiet : Attempt.Only isQuiet
      (suite.visitCase .check (some known) registry outcome case) :=
    Attempt.only_bind (isQuiet_assemble_of_known suite known registry case) fun report =>
      Attempt.only_bind (isQuiet_runDocuments_check suite case _ _) fun _ => Attempt.only_pure _
  rw [← (sameOn_visitCase_of_known proceeds known registry outcome machine).1]
  exact Attempt.result_bind_of_quiet quiet _ machine

/-- A run of one case whose identity is known goes through the documents of the
analyses that the files tell. -/
theorem sameOn_run_of_known {known : CaseIdentities} (proceeds : suite.policy = .proceed)
    (identify : (suite.identities.runOn machine).1 = .ok (some known))
    (register : (suite.registry.runOn machine).1 = .ok registry)
    (list : (suite.cases.runOn machine).1 = .ok [case]) :
    Attempt.SameOn machine (suite.run mode)
      (suite.visitInputs mode case (suite.contextOf case (known.identityOf case) registry) {}
        ((machine.files.analyses (suite.analysisOf case)).map .ofFile)) := by
  refine (sameOn_run identify register list).trans ?_
  refine (Attempt.sameOn_bind_of_idle machine fun _ _ => ⟨rfl, rfl⟩).trans ?_
  exact sameOn_visitCase_of_known proceeds known registry {} machine

/-- The analyses of the case need not be sorted if they are found in order. -/
theorem sameOn_run_of_ordered {known : CaseIdentities} (proceeds : suite.policy = .proceed)
    (identify : (suite.identities.runOn machine).1 = .ok (some known))
    (register : (suite.registry.runOn machine).1 = .ok registry)
    (list : (suite.cases.runOn machine).1 = .ok [case])
    (ordered : (machine.files.analysesIn
      (machine.files.entriesBelow (suite.analysisOf case))).Pairwise
        fun first second => first.path.le second.path) :
    Attempt.SameOn machine (suite.run mode)
      (suite.visitInputs mode case (suite.contextOf case (known.identityOf case) registry) {}
        ((machine.files.analysesIn
          (machine.files.entriesBelow (suite.analysisOf case))).map .ofFile)) := by
  rw [← FileTree.analyses_eq_of_ordered ordered]
  exact sameOn_run_of_known proceeds identify register list

theorem relativePaths_of_ordered {tree : FileTree}
    (ordered : (tree.analysesIn (tree.entriesBelow (suite.analysisOf case))).Pairwise
      fun first second => first.path.le second.path) :
    suite.relativePaths tree case =
      (tree.analysesIn (tree.entriesBelow (suite.analysisOf case))).filterMap
        fun file => file.analysis.toOption.map (·.relativePath) := by
  rw [relativePaths, AnalyzedFile.runOn_loadDirectory, FileTree.analyses_eq_of_ordered ordered]
  rfl

end Suite

end SymbolIndex
