import SymbolIndex.Proofs.Analysis.Completeness
import SymbolIndex.Proofs.Snapshot.Updating

/-!
# The verdict of a check

A check changes no file, and what it finds can be told from the files alone: each
document that has a snapshot is compared with its own golden file, and each file that
cannot be indexed is reported, whatever is found of the others.
-/

namespace SymbolIndex

/-- The text of a golden file.  One that is not there counts as empty. -/
def FileTree.goldenText (tree : FileTree) (path : FilePath) : Except FileError String :=
  match tree.readText path with
  | .error .notFound => .ok ""
  | result => result

namespace Golden

/-- How a snapshot differs from the text of its golden file, if it does. -/
def compare (path : FilePath) (golden snapshot : String) : Option Mismatch :=
  if golden = snapshot then none
  else some ⟨path, Diff.unified path.text "obtained" golden snapshot⟩

theorem runOn_load (path : FilePath) (machine : Machine) :
    (load path).runOn machine =
      ((machine.files.goldenText path).mapError (.read path), machine) := by
  rw [load, Attempt.runOn_bind, Attempt.runOn_lift, Session.run_readText, FileTree.goldenText]
  cases machine.files.readText path with
  | ok text => rfl
  | error error => cases error <;> rfl

theorem runOn_check_eq_ok {path : FilePath} {snapshot : String} {machine after : Machine}
    {found : Option Mismatch}
    (ran : (check path snapshot).runOn machine = (.ok found, after)) :
    after = machine ∧ ∃ golden, machine.files.goldenText path = .ok golden ∧
      compare path golden snapshot = found := by
  obtain ⟨golden, middle, loaded, ran⟩ := Attempt.runOn_bind_eq_ok.mp ran
  rw [runOn_load, Prod.mk.injEq] at loaded
  obtain ⟨loaded, rfl⟩ := loaded
  refine ⟨?_, golden, Fallible.mapError_eq_ok.mp loaded, ?_⟩
  · split at ran <;> (cases ran; rfl)
  · rw [compare]
    split at ran
    case isTrue same =>
      cases ran
      rw [if_pos same]
    case isFalse differs =>
      cases ran
      rw [if_neg differs]

end Golden

/-- What indexing a case of a suite came to. -/
structure CaseReport where
  case : String
  report : AssemblyReport

namespace CaseReport

/-- The documents of a case that have snapshots. -/
def snapshots (visit : CaseReport) : List Document :=
  visit.report.index.documents.filter (!·.isOutside)

end CaseReport

namespace Suite

variable (suite : Suite)

def sourceOf (case : String) (document : Document) : FilePath :=
  (suite.inputOf case).child document.relativePath

/-- The snapshot of a document, if its source is some text. -/
def rendering (tree : FileTree) (case : String) (document : Document) : String :=
  Snapshot.render ((tree.readText (suite.sourceOf case document)).toOption.getD "") document

/-- How the snapshot of a document differs from what its golden file holds, if it
does. -/
def mismatch? (tree : FileTree) (case : String) (document : Document) : Option Mismatch :=
  let golden := suite.goldenOf case document
  Golden.compare golden ((tree.goldenText golden).toOption.getD "")
    (suite.rendering tree case document)

/-- Whether the source and the golden file of a document can be read, where a golden
file need not be there. -/
structure Readable (tree : FileTree) (case : String) (document : Document) : Prop where
  source : ∃ text, tree.readText (suite.sourceOf case document) = .ok text
  golden : ∃ text, tree.goldenText (suite.goldenOf case document) = .ok text

/-- Whether a report tells, in the order of the paths of its analyses, the documents of those
that are loaded and named and the failures of all others.  The case is called what its
files tell or, if they do not tell it, what programs answer at some moment. -/
def Tells (start : Machine) (identities : Option CaseIdentities) (registry : Registry)
    (visit : CaseReport) : Prop :=
  ∃ identity moment files, moment.files = start.files ∧ moment.programs = start.programs ∧
    ((suite.identityOf identities visit.case).runOn moment).1 = .ok identity ∧
    start.files.AreAnalyses (suite.analysisOf visit.case) files ∧
    let context := suite.contextOf visit.case identity registry
    let inputs := files.map IndexInput.ofFile
    visit.report.index.documents = inputs.filterMap (·.document? context) ∧
      visit.report.failures = inputs.filterMap (·.failure? context)

/-- Whether some names are those of the cases of a suite: the one that is given, or
those of the directories of sources in their order. -/
def AreCases (tree : FileTree) (names : List String) : Prop :=
  match suite.only with
  | some case => names = [case]
  | none =>
    names.Pairwise (· ≤ ·) ∧ ∃ entries, tree.list (suite.root.child "input") = .ok entries ∧
      names.Perm ((entries.filter fun entry => entry.2 = .directory).map Prod.fst)

/-- What a check comes to after some more cases. -/
def judge (tree : FileTree) (outcome : SuiteOutcome) (visits : List CaseReport) : SuiteOutcome where
  cases := outcome.cases + visits.length
  documents := outcome.documents + (visits.flatMap CaseReport.snapshots).length
  written := outcome.written
  mismatches := outcome.mismatches ++
    visits.flatMap fun visit => visit.snapshots.filterMap (suite.mismatch? tree visit.case)
  failures := outcome.failures ++ visits.flatMap fun visit => visit.report.failures

variable {suite} {start machine after : Machine} {case : String} {document : Document}
  {documents : List Document} {outcome checked : SuiteOutcome}
  {identities : Option CaseIdentities} {registry : Registry}

theorem runOn_snapshot_eq_ok {snapshot : String}
    (ran : (suite.snapshot case document).runOn machine = (.ok snapshot, after)) :
    after = machine ∧ (∃ text, machine.files.readText (suite.sourceOf case document) = .ok text) ∧
      suite.rendering machine.files case document = snapshot := by
  obtain ⟨source, middle, found, ran⟩ := Attempt.runOn_bind_eq_ok.mp ran
  have text := Attempt.runOn_ofSession_eq_ok.mp found
  rw [Session.run_readText, Prod.mk.injEq] at text
  obtain ⟨read, rfl⟩ := text
  cases ran
  refine ⟨rfl, ⟨source, read⟩, ?_⟩
  rw [rendering, sourceOf, read]
  rfl

/-- Checking a document compares its snapshot with its golden file and nothing else. -/
theorem runDocument_check_eq_ok
    (ran : (suite.runDocument .check case outcome document).runOn machine = (.ok checked, after)) :
    after = machine ∧ suite.Readable machine.files case document ∧
      checked = { outcome with
        documents := outcome.documents + 1
        mismatches := outcome.mismatches ++
          (suite.mismatch? machine.files case document).toList } := by
  obtain ⟨snapshot, rendered, render, ran⟩ := Attempt.runOn_bind_eq_ok.mp ran
  obtain ⟨rfl, source, rfl⟩ := runOn_snapshot_eq_ok render
  obtain ⟨found, last, check, ran⟩ := Attempt.runOn_bind_eq_ok.mp ran
  obtain ⟨rfl, golden, read, rfl⟩ :=
    Golden.runOn_check_eq_ok (Attempt.runOn_mapError_eq_ok.mp check)
  cases ran
  refine ⟨rfl, ⟨source, golden, read⟩, ?_⟩
  rw [mismatch?, read]
  rfl

theorem runDocuments_check_eq_ok
    (ran : (suite.runDocuments .check case outcome documents).runOn machine =
      (.ok checked, after)) :
    (∀ document ∈ documents.filter (!·.isOutside),
        suite.Readable machine.files case document) ∧
      checked = { outcome with
        documents := outcome.documents + (documents.filter (!·.isOutside)).length
        mismatches := outcome.mismatches ++
          (documents.filter (!·.isOutside)).filterMap (suite.mismatch? machine.files case) } := by
  induction documents generalizing outcome machine with
  | nil =>
      cases ran
      simp
  | cons document rest ih =>
      rw [runDocuments] at ran
      by_cases outside : document.isOutside = true
      · rw [if_pos outside] at ran
        obtain ⟨_, logged, log, ran⟩ := Attempt.runOn_bind_eq_ok.mp ran
        rw [Attempt.runOn_lift, Session.run_log, Prod.mk.injEq] at log
        obtain ⟨-, rfl⟩ := log
        rw [List.filter_cons_of_neg (by simp [outside])]
        have others := ih ran
        exact others
      · rw [if_neg outside] at ran
        obtain ⟨first, middle, judged, ran⟩ := Attempt.runOn_bind_eq_ok.mp ran
        obtain ⟨rfl, readable, rfl⟩ := runDocument_check_eq_ok judged
        obtain ⟨others, rfl⟩ := ih ran
        rw [List.filter_cons_of_pos (by simp [outside])]
        refine ⟨List.forall_mem_cons.mpr ⟨readable, others⟩, ?_⟩
        cases found : suite.mismatch? middle.files case document <;>
          simp [found, Nat.add_assoc, Nat.add_comm 1]

theorem Tells.congr {other : Machine} {visit : CaseReport}
    (tells : suite.Tells start identities registry visit) (files : start.files = other.files)
    (programs : start.programs = other.programs) :
    suite.Tells other identities registry visit := by
  rwa [Tells, files, programs] at tells

theorem assemble_tells {report : AssemblyReport}
    (ran : (suite.assemble identities registry case).runOn machine = (.ok report, after)) :
    suite.Tells machine identities registry ⟨case, report⟩ := by
  obtain ⟨identity, named, identify, ran⟩ := Attempt.runOn_bind_eq_ok.mp ran
  obtain ⟨files, loaded, load, ran⟩ := Attempt.runOn_bind_eq_ok.mp ran
  obtain ⟨directory, located, -, ran⟩ := Attempt.runOn_bind_eq_ok.mp ran
  obtain ⟨⟨found, elapsed⟩, built, build, ran⟩ := Attempt.runOn_bind_eq_ok.mp ran
  cases ran
  have sameFiles : named.files = machine.files := by
    have kept := Attempt.files_runOn_of_only (reads_identityOf suite identities case) machine
    rwa [identify] at kept
  have load := Attempt.runOn_mapError_eq_ok.mp load
  rw [AnalyzedFile.runOn_loadDirectory, sameFiles] at load
  cases load
  have assembled := Index.build_eq_ok (Attempt.runOn_mapError_eq_ok.mp build)
  rw [Index.assemble_eq_ofInputs] at assembled
  unfold Index.ofInputs at assembled
  dsimp only at assembled
  split at assembled
  · cases assembled
  · cases assembled
    exact ⟨identity, machine, _, rfl, rfl, by rw [identify],
      machine.files.areAnalyses_analyses _, rfl, rfl⟩

/-- A case adds the verdicts on its documents and the failures of its files to what was
found before. -/
theorem visitCase_check_eq_ok
    (ran : (suite.visitCase .check identities registry outcome case).runOn machine =
      (.ok checked, after)) :
    ∃ report, suite.Tells machine identities registry ⟨case, report⟩ ∧
      (∀ document ∈ CaseReport.snapshots ⟨case, report⟩,
        suite.Readable machine.files case document) ∧
      checked = suite.judge machine.files outcome [⟨case, report⟩] := by
  obtain ⟨report, assembled, assemble, ran⟩ := Attempt.runOn_bind_eq_ok.mp ran
  obtain ⟨judged, last, documents, ran⟩ := Attempt.runOn_bind_eq_ok.mp ran
  cases ran
  have sameFiles : assembled.files = machine.files := by
    have kept := Attempt.files_runOn_of_only (reads_assemble suite identities registry case) machine
    rwa [assemble] at kept
  obtain ⟨readable, rfl⟩ := runDocuments_check_eq_ok documents
  rw [sameFiles] at readable ⊢
  exact ⟨report, assemble_tells assemble, readable, by simp [judge, CaseReport.snapshots]⟩

theorem judge_append (tree : FileTree) (outcome : SuiteOutcome) (first others : List CaseReport) :
    suite.judge tree (suite.judge tree outcome first) others =
      suite.judge tree outcome (first ++ others) := by
  simp [judge, Nat.add_assoc]

theorem visitCases_check_eq_ok {names : List String}
    (ran : (suite.visitCases .check identities registry outcome names).runOn machine =
      (.ok checked, after))
    (sameFiles : machine.files = start.files) (samePrograms : machine.programs = start.programs) :
    ∃ visits : List CaseReport, visits.map CaseReport.case = names ∧
      (∀ visit ∈ visits, suite.Tells start identities registry visit ∧
        ∀ document ∈ visit.snapshots, suite.Readable start.files visit.case document) ∧
      checked = suite.judge start.files outcome visits := by
  induction names generalizing outcome machine with
  | nil =>
      cases ran
      exact ⟨[], rfl, by simp, by simp [judge]⟩
  | cons case rest ih =>
      obtain ⟨first, middle, visited, ran⟩ := Attempt.runOn_bind_eq_ok.mp ran
      have kept := Attempt.files_runOn_of_only
        (reads_visitCase_check suite identities registry outcome case) machine
      have programs := Session.programs_run
        (suite.visitCase .check identities registry outcome case).run machine
      change ((suite.visitCase .check identities registry outcome case).runOn machine).2.programs =
        machine.programs at programs
      rw [visited] at kept programs
      obtain ⟨report, tells, readable, rfl⟩ := visitCase_check_eq_ok visited
      rw [sameFiles] at readable
      obtain ⟨visits, rfl, others, rfl⟩ := ih ran (kept.trans sameFiles)
        (programs.trans samePrograms)
      refine ⟨⟨case, report⟩ :: visits, rfl, List.forall_mem_cons.mpr ⟨⟨?_, readable⟩, others⟩, ?_⟩
      · exact tells.congr sameFiles samePrograms
      · rw [sameFiles, judge_append]
        rfl

theorem areCases_of_cases {names : List String}
    (listed : suite.cases.runOn machine = (.ok names, after)) :
    suite.AreCases machine.files names := by
  unfold cases at listed
  unfold AreCases
  cases only : suite.only with
  | some name =>
    rw [only] at listed
    cases listed
    rfl
  | none =>
    rw [only] at listed
    obtain ⟨entries, middle, found, listed⟩ := Attempt.runOn_bind_eq_ok.mp listed
    have found := Attempt.runOn_ofSession_eq_ok.mp found
    rw [Session.run_list, Prod.mk.injEq] at found
    cases listed
    refine ⟨?_, entries, found.1, List.mergeSort_perm _ _⟩
    refine (List.pairwise_mergeSort (fun first second third => ?_) (fun first second => ?_) _).imp
      fun ordered => of_decide_eq_true ordered
    · simpa using String.le_trans
    · simpa using String.le_total first second

/-- A check changes no file.  If it comes to an end, it has gone through the cases in
the order of their names; its mismatches are those of the documents of each case that
have snapshots, in the order of the documents, its failures those of the files of each
case, in the order of their paths, and all that it had to read could be read. -/
theorem run_check_verdict (suite : Suite) (machine : Machine) :
    ((suite.run .check).runOn machine).2.files = machine.files ∧
      ∀ outcome, ((suite.run .check).runOn machine).1 = .ok outcome →
        ∃ (identities : Option CaseIdentities) (registry : Registry) (visits : List CaseReport),
          (suite.identities.runOn machine).1 = .ok identities ∧
          (suite.registry.runOn machine).1 = .ok registry ∧
          suite.AreCases machine.files (visits.map CaseReport.case) ∧
          (∀ visit ∈ visits, suite.Tells machine identities registry visit ∧
            ∀ document ∈ visit.snapshots, suite.Readable machine.files visit.case document) ∧
          outcome.cases = visits.length ∧
          outcome.documents = (visits.flatMap CaseReport.snapshots).length ∧
          outcome.mismatches = (visits.flatMap fun visit =>
            visit.snapshots.filterMap (suite.mismatch? machine.files visit.case)) ∧
          outcome.failures = (visits.flatMap fun visit => visit.report.failures) ∧
          (outcome.isSuccess = true ↔ outcome.mismatches = [] ∧ outcome.failures = []) := by
  refine ⟨Attempt.files_runOn_of_only (reads_run_check suite) machine, fun outcome succeeded => ?_⟩
  have ran := Attempt.runOn_eq_mk succeeded
  obtain ⟨identities, identified, identify, ran⟩ := Attempt.runOn_bind_eq_ok.mp ran
  obtain ⟨registry, registered, register, ran⟩ := Attempt.runOn_bind_eq_ok.mp ran
  obtain ⟨names, listed, list, ran⟩ := Attempt.runOn_bind_eq_ok.mp ran
  obtain ⟨judged, visited, visit, ran⟩ := Attempt.runOn_bind_eq_ok.mp ran
  obtain ⟨_, logged, log, ran⟩ := Attempt.runOn_bind_eq_ok.mp ran
  cases ran
  have registeredFirst : (suite.registry.runOn machine).1 = .ok registry := by
    rw [← (Attempt.runOn_of_quiet (isQuiet_identities suite) identify suite.registry).1, register]
  obtain ⟨identifiedFiles, identifiedAlike⟩ :=
    Attempt.kept_of_quiet (isQuiet_identities suite) identify
  obtain ⟨registeredFiles, registeredAlike⟩ :=
    Attempt.kept_of_quiet (isQuiet_registry suite) register
  obtain ⟨listedFiles, listedAlike⟩ := Attempt.kept_of_quiet (isQuiet_cases suite) list
  obtain ⟨visits, rfl, told, rfl⟩ := visitCases_check_eq_ok visit
    (listedFiles.trans (registeredFiles.trans identifiedFiles))
    (identifiedAlike.trans (registeredAlike.trans listedAlike)).programs
  have areCases := areCases_of_cases list
  rw [registeredFiles, identifiedFiles] at areCases
  refine ⟨identities, registry, visits, by rw [identify], registeredFirst, areCases, told, ?_⟩
  simp [judge, SuiteOutcome.isSuccess]

theorem AreCases.unique {tree : FileTree} {names others : List String}
    (areCases : suite.AreCases tree names) (areCasesToo : suite.AreCases tree others) :
    names = others := by
  unfold AreCases at areCases areCasesToo
  cases only : suite.only with
  | some case =>
      rw [only] at areCases areCasesToo
      exact areCases.trans areCasesToo.symm
  | none =>
      rw [only] at areCases areCasesToo
      obtain ⟨ordered, entries, listed, perm⟩ := areCases
      obtain ⟨orderedToo, entries, listedToo, permToo⟩ := areCasesToo
      cases listed.symm.trans listedToo
      exact (perm.trans permToo.symm).eq_of_pairwise (fun _ _ _ _ => String.le_antisymm) ordered
        orderedToo

/-- Two cases that are listed the other way round.  In the first one, two analyses cannot be
read and one cannot be named; in the second, a document is outside of the project, one has its
snapshot and one has none. -/
def casesMachine : Machine where
  files :=
    let file (text : String) : FileNode := .file text.toUTF8
    ⟨.directory [("s", .directory [
      ("packageInfo.json", file "[[\"sample\",\"1.0\"]]"),
      ("input", .directory [
        ("d", .directory [("w", file "w"), ("x", file "x")]),
        ("notes", file ""),
        ("c", .directory [("b", file "b")])]),
      ("analysis", .directory [
        ("d", .directory [("y.json", file ""), ("x.json", file "[\"x\"]"),
          ("w.json", file "[\"w\"]"), ("v.json", file "[\"../v\"]")]),
        ("c", .directory [("n.json", file "[\"n\",\"python\",[],[[1,[0,0,1]]]]"),
          ("b.json", file "[\"b\"]"), ("a-b.json", file "x"),
          ("a", .directory [("z.json", file ""), ("z.txt", file "")])])]),
      ("output", .directory [("d", .directory [("x", file "x\n")])])])], []⟩

theorem run_check_verdict_of_two_cases :
    ∃ outcome, ((sampleSuite.run .check).runOn casesMachine).1 = .ok outcome ∧
      ∃ visits : List CaseReport, visits.map CaseReport.case = ["c", "d"] ∧
        outcome.failures = (visits.flatMap fun visit => visit.report.failures) ∧
        outcome.documents = 3 ∧
        outcome.mismatches.map (·.path.text) = ["s/output/c/b", "s/output/d/w"] ∧
        outcome.failures.map (·.path) =
          ["s/analysis/c/a/z.json", "s/analysis/c/a-b.json", "n", "s/analysis/d/y.json"] := by
  have areCases : sampleSuite.AreCases casesMachine.files ["c", "d"] :=
    ⟨by decide, [("d", .directory), ("notes", .file), ("c", .directory)], rfl, by decide⟩
  have listed : (sampleSuite.cases.runOn casesMachine).1 = .ok ["c", "d"] := by
    obtain ⟨names, found⟩ : ∃ names, (sampleSuite.cases.runOn casesMachine).1 = .ok names :=
      ⟨_, rfl⟩
    rw [found, (areCases_of_cases (Attempt.runOn_eq_mk found)).unique areCases]
  have first : casesMachine.files.analyses (sampleSuite.analysisOf "c") =
      [⟨"s/analysis/c/a/z.json"⟩, ⟨"s/analysis/c/a-b.json"⟩, ⟨"s/analysis/c/b.json"⟩,
        ⟨"s/analysis/c/n.json"⟩].map fun path => ⟨path, casesMachine.files.analysis path⟩ :=
    FileTree.analyses_eq_of_before (by decide +kernel) (by decide +kernel)
  have second : casesMachine.files.analyses (sampleSuite.analysisOf "d") =
      [⟨"s/analysis/d/v.json"⟩, ⟨"s/analysis/d/w.json"⟩, ⟨"s/analysis/d/x.json"⟩,
        ⟨"s/analysis/d/y.json"⟩].map fun path => ⟨path, casesMachine.files.analysis path⟩ :=
    FileTree.analyses_eq_of_before (by decide +kernel) (by decide +kernel)
  have identify : (sampleSuite.identities.runOn casesMachine).1 = .ok (some sampleIdentities) := by
    decide +kernel
  have register : (sampleSuite.registry.runOn casesMachine).1 = .ok (.ofPackages []) := by
    decide +kernel
  have told : ((sampleSuite.run .check).runOn casesMachine).1.toOption.map (fun outcome =>
      (outcome.documents, outcome.mismatches.map (·.path.text), outcome.failures.map (·.path))) =
        some (3, ["s/output/c/b", "s/output/d/w"],
          ["s/analysis/c/a/z.json", "s/analysis/c/a-b.json", "n", "s/analysis/d/y.json"]) := by
    rw [(sameOn_run identify register listed).1]
    have proceeds : sampleSuite.policy = .proceed := rfl
    simp only [result_visitCases_check_cons proceeds, first, second]
    decide +kernel
  obtain ⟨outcome, ran, counted⟩ := Option.map_eq_some_iff.mp told
  have succeeded := Fallible.toOption_eq_some.mp ran
  obtain ⟨-, -, visits, -, -, visited, -, -, -, -, failures, -⟩ :=
    (run_check_verdict sampleSuite casesMachine).2 outcome succeeded
  simp only [Prod.mk.injEq] at counted
  obtain ⟨documents, mismatches, failed⟩ := counted
  exact ⟨outcome, succeeded, visits, visited.unique areCases, failures, documents, mismatches,
    failed⟩

end Suite

end SymbolIndex
