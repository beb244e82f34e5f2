import SymbolIndex.Proofs.Index.Assembly
import SymbolIndex.Proofs.Machine.Walks
import SymbolIndex.Proofs.Naming.Step
import SymbolIndex.Proofs.Snapshot.Reading
import Mathlib.Data.List.Perm.Basic

/-!
# The cases of a suite

The files of a suite tell its cases and the snapshots that each of them may have.
Both stay the same as long as files change only below `output`, since everything
that they are told from lies in other branches of the suite.
-/

namespace SymbolIndex

open FileTree (AlikeFor ChangesIn LeadsInto leadsInto_child)

/-- A list that keeps fewer results than another one is a part of it. -/
theorem sublist_filterMap {α β : Type} {f g : α → Option β} {items : List α}
    (fewer : ∀ item result, f item = some result → g item = some result) :
    (items.filterMap f).Sublist (items.filterMap g) := by
  induction items with
  | nil => exact .slnil
  | cons item items ih =>
      cases found : f item with
      | none =>
          rw [List.filterMap_cons_none found]
          cases foundMore : g item with
          | none => rwa [List.filterMap_cons_none foundMore]
          | some result =>
              rw [List.filterMap_cons_some foundMore]
              exact .cons _ ih
      | some result =>
          rw [List.filterMap_cons_some found,
            List.filterMap_cons_some (fewer item result found)]
          exact .cons_cons _ ih

namespace IndexInput

/-- A document has the relative path of the analysis that it is made of. -/
theorem relativePath_of_document {context : ProjectNaming} {file : AnalyzerOutput}
    {document : Document} (found : (ofFile file).document? context = some document) :
    ∃ analysis, file.analysis = .ok analysis ∧
      document.relativePath = analysis.relativePath := by
  unfold document? at found
  split at found
  case h_2 => cases found
  case h_1 named success =>
    cases found
    unfold name ofFile at success
    split at success
    · cases success
    · rename_i analysis isAnalysis
      obtain ⟨_, last, occurrences, -, -, rfl⟩ :=
        ProjectNaming.nameFile_eq_ok (Fallible.mapError_eq_ok.mp success)
      exact ⟨analysis, isAnalysis, rfl⟩

end IndexInput

namespace Index

/-- The documents of an index in the order of the files that they are made of. -/
theorem documents_of_assemble {context : ProjectNaming} {policy : FailurePolicy}
    {metadata : Metadata} {inputs : List IndexInput} {report : AssemblyReport}
    (assembled : assemble context policy metadata inputs = .ok report) :
    report.index.documents = inputs.filterMap (·.document? context) := by
  rw [assemble_eq_ofInputs] at assembled
  unfold ofInputs at assembled
  dsimp only at assembled
  split at assembled
  · cases assembled
  · cases assembled
    rfl

theorem build_eq_ok {context : ProjectNaming} {policy : FailurePolicy} {metadata : Metadata}
    {inputs : List IndexInput} {report : AssemblyReport} {elapsed : Nat}
    {machine after : Machine}
    (built : (build context policy metadata inputs).runOn machine = (.ok (report, elapsed), after)) :
    assemble context policy metadata inputs = .ok report := by
  obtain ⟨_, _, -, built⟩ := Attempt.runOn_bind_eq_ok.mp built
  obtain ⟨_, _, -, built⟩ := Attempt.runOn_bind_eq_ok.mp built
  split at built
  · cases built
  · rename_i found assembled
    obtain ⟨_, _, -, built⟩ := Attempt.runOn_bind_eq_ok.mp built
    obtain ⟨_, _, -, built⟩ := Attempt.runOn_bind_eq_ok.mp built
    cases built
    exact assembled

end Index

namespace Suite

/-- The cases of a suite. -/
def caseNames (suite : Suite) (tree : FileTree) : List String :=
  (suite.cases.runOn { files := tree }).1.toOption.getD []

/-- The relative paths in the analyses of a case. -/
def relativePaths (suite : Suite) (tree : FileTree) (case : String) : List String :=
  let loaded := ((AnalyzedFile.loadDirectory (suite.analysisOf case)).runOn { files := tree }).1
  (loaded.toOption.getD []).filterMap fun file => file.analysis.toOption.map (·.relativePath)

/-- The relative paths of a case that do not start with two dots. -/
def snapshotPaths (suite : Suite) (tree : FileTree) (case : String) : List String :=
  (suite.relativePaths tree case).filter fun text => !"..".toList.isPrefixOf text.toList

/-- Whether all names that a suite makes paths of keep to the directories that they
are meant for. -/
structure Tidy (suite : Suite) (tree : FileTree) : Prop where
  proper : tree.top.Proper
  only : ∀ case, suite.only = some case → (FilePath.mk case).StaysInside
  inside : ∀ case ∈ suite.caseNames tree, ∀ text ∈ suite.snapshotPaths tree case,
    (FilePath.mk text).StaysInside

section Loading

variable {suite : Suite} {tree : FileTree} {machine after : Machine} {case : String}

theorem cases_eq_ok {names : List String} (ran : (suite.cases.runOn machine).1 = .ok names) :
    names = suite.caseNames machine.files := by
  have agrees : Attempt.Agrees (fun _ _ => True) machine.files machine.files suite.cases :=
    agrees_cases rfl
  have same : (suite.cases.runOn { files := machine.files }).1 = .ok names :=
    (agrees.result_eq machine { files := machine.files } rfl rfl trivial).trans ran
  rw [caseNames, same]
  rfl

theorem relativePaths_of_loaded {files : List AnalyzerOutput}
    (ran : ((AnalyzedFile.loadDirectory (suite.analysisOf case)).runOn machine).1 = .ok files) :
    suite.relativePaths machine.files case =
      files.filterMap fun file => file.analysis.toOption.map (·.relativePath) := by
  have agrees : Attempt.Agrees (fun _ _ => True) machine.files machine.files
      (AnalyzedFile.loadDirectory (suite.analysisOf case)) :=
    AnalyzedFile.agrees_loadDirectory rfl fun _ _ _ _ => .refl _ _
  have same :
      ((AnalyzedFile.loadDirectory (suite.analysisOf case)).runOn { files := machine.files }).1 =
        .ok files :=
    (agrees.result_eq machine { files := machine.files } rfl rfl trivial).trans ran
  rw [relativePaths, same]
  rfl

/-- Where analyses are found, there is a directory that they are found in. -/
theorem kind?_of_loaded {dir : FilePath} {files : List AnalyzerOutput}
    (ran : (AnalyzedFile.loadDirectory dir).runOn machine = (.ok files, after))
    (nonempty : files ≠ []) : (machine.files.kind? dir).isSome = true := by
  obtain ⟨there, middle, asked, ran⟩ := Attempt.runOn_bind_eq_ok.mp ran
  rw [Attempt.runOn_lift, Session.pathExists, Session.run_bind, Session.run_kind] at asked
  cases asked
  split at ran
  · assumption
  · cases ran
    exact absurd rfl nonempty

/-- An assembly for a case is made of its analyses. -/
theorem assemble_eq_ok {identities : Option CaseIdentities} {registry : Registry}
    {report : AssemblyReport}
    (ran : (suite.assemble identities registry case).runOn machine = (.ok report, after)) :
    ∃ context metadata start loaded files, start.files = machine.files ∧
      (AnalyzedFile.loadDirectory (suite.analysisOf case)).runOn start = (.ok files, loaded) ∧
      Index.assemble context suite.policy metadata (files.map .ofFile) = .ok report := by
  obtain ⟨identity, start, identified, ran⟩ := Attempt.runOn_bind_eq_ok.mp ran
  obtain ⟨files, loaded, load, ran⟩ := Attempt.runOn_bind_eq_ok.mp ran
  obtain ⟨directory, located, -, ran⟩ := Attempt.runOn_bind_eq_ok.mp ran
  obtain ⟨⟨found, elapsed⟩, built, build, ran⟩ := Attempt.runOn_bind_eq_ok.mp ran
  cases ran
  obtain ⟨-, -, sameFiles, -⟩ :=
    (agrees_identityOf (.refl suite machine.files case) identities).runOn_eq_ok rfl rfl
      (.refl machine) identified
  have load := Attempt.runOn_mapError_eq_ok.mp load
  have assembled := Index.build_eq_ok (Attempt.runOn_mapError_eq_ok.mp build)
  exact ⟨_, _, start, loaded, files, sameFiles, load, assembled⟩

/-- The documents of a case come from its analyses, in the order of the analyses. -/
theorem sublist_relativePaths_of_assemble {identities : Option CaseIdentities}
    {registry : Registry} {report : AssemblyReport}
    (ran : (suite.assemble identities registry case).runOn machine = (.ok report, after)) :
    (report.index.documents.map (·.relativePath)).Sublist
      (suite.relativePaths machine.files case) := by
  obtain ⟨context, metadata, start, loaded, files, sameFiles, load, assembled⟩ :=
    assemble_eq_ok ran
  rw [← sameFiles, relativePaths_of_loaded (congrArg Prod.fst load),
    Index.documents_of_assemble assembled, List.filterMap_map, List.map_filterMap]
  refine sublist_filterMap fun file path found => ?_
  obtain ⟨document, isDocument, rfl⟩ := Option.map_eq_some_iff.mp found
  obtain ⟨analysis, isAnalysis, same⟩ := IndexInput.relativePath_of_document isDocument
  rw [isAnalysis, same]
  rfl

/-- A suite with a document is in a directory. -/
theorem enters_of_assemble {identities : Option CaseIdentities} {registry : Registry}
    {report : AssemblyReport} (inside : (FilePath.mk case).StaysInside)
    (ran : (suite.assemble identities registry case).runOn machine = (.ok report, after))
    (nonempty : report.index.documents ≠ []) : machine.files.Enters suite.root := by
  obtain ⟨context, metadata, start, loaded, files, sameFiles, load, assembled⟩ :=
    assemble_eq_ok ran
  have someFiles : files ≠ [] := by
    rintro rfl
    exact nonempty (by rw [Index.documents_of_assemble assembled]; rfl)
  have there := kind?_of_loaded load someFiles
  rw [sameFiles] at there
  exact FileTree.enters_of_child (by decide)
    (FileTree.enters_of_child inside.1 (FileTree.followed_of_kind? there)).1

end Loading

section Names

variable {suite : Suite} {tree : FileTree}

theorem caseNames_of_only {case : String} (only : suite.only = some case) :
    suite.caseNames tree = [case] := by
  rw [caseNames, cases, only]
  rfl

/-- Cases that are found have names that can be told apart. -/
theorem caseNames_of_listed (proper : tree.top.Proper) (all : suite.only = none) :
    (∀ case ∈ suite.caseNames tree, FilePath.IsName case) ∧ (suite.caseNames tree).Nodup := by
  rw [caseNames, cases, all]
  dsimp only
  rw [Attempt.runOn_bind, Attempt.runOn_ofSession, Session.run_list]
  cases found : tree.list (suite.root.child "input") with
  | error error => simp [Except.toOption]
  | ok listed =>
      obtain ⟨areNames, distinct⟩ := FileTree.names_of_list proper found
      have part := (@List.filter_sublist _ (fun entry => entry.2 = EntryKind.directory)
        listed).map Prod.fst
      constructor
      · intro case isCase
        obtain ⟨entry, isEntry, rfl⟩ :=
          List.mem_map.mp (part.subset (List.mem_mergeSort.mp isCase))
        exact areNames entry isEntry
      · exact (List.mergeSort_perm _ _).nodup_iff.mpr (distinct.sublist part)

theorem staysInside_of_mem_caseNames (tidy : suite.Tidy tree) {case : String}
    (isCase : case ∈ suite.caseNames tree) : (FilePath.mk case).StaysInside := by
  cases only : suite.only with
  | none =>
      have isName := (caseNames_of_listed tidy.proper only).1 case isCase
      exact (FilePath.staysInside_of_isName isName).1
  | some name =>
      rw [caseNames_of_only only, List.mem_singleton] at isCase
      rw [isCase]
      exact tidy.only name only

end Names

section Changes

variable {suite : Suite} {start old new : FileTree} {case : String} {path : FilePath}

theorem list_input_eq (changes : ChangesIn suite.root "output" old new) :
    new.list (suite.root.child "input") = old.list (suite.root.child "input") := by
  obtain ⟨alike, sameEnd⟩ := changes.alikeFor
    (fun enters => leadsInto_child enters (by decide : FilePath.IsName "input")) (by decide)
  rw [FileTree.list, FileTree.list, alike.node_eq sameEnd]

theorem caseNames_eq (changes : ChangesIn suite.root "output" old new) :
    suite.caseNames new = suite.caseNames old := by
  have agrees : Attempt.Agrees (fun _ _ => True) old new suite.cases :=
    agrees_cases (list_input_eq changes)
  have same : (suite.cases.runOn { files := new }).1 = (suite.cases.runOn { files := old }).1 :=
    agrees.result_eq _ _ rfl rfl trivial
  rw [caseNames, caseNames, same]

/-- A case is read in the same way whatever changes below `output`. -/
theorem caseAlike_of_changesIn (proper : start.top.Proper) (inside : (FilePath.mk case).StaysInside)
    (before : ChangesIn suite.root "output" start old)
    (changes : ChangesIn suite.root "output" old new) : suite.CaseAlike old new case := by
  have leadsInput (tree : FileTree) (enters : tree.Enters suite.root) :
      LeadsInto tree suite.root "input" (suite.inputOf case) :=
    (leadsInto_child enters (by decide)).child inside
  have leadsAnalysis (tree : FileTree) (enters : tree.Enters suite.root) :
      LeadsInto tree suite.root "analysis" (suite.analysisOf case) :=
    (leadsInto_child enters (by decide)).child inside
  have directory {first second : FileTree}
      (changes : ChangesIn suite.root "output" first second) :
      second.node (suite.analysisOf case) = first.node (suite.analysisOf case) := by
    obtain ⟨alike, sameEnd⟩ := changes.alikeFor (leadsAnalysis first) (by decide)
    exact alike.node_eq sameEnd
  refine ⟨changes.workingDirectory_eq, (changes.alikeFor (leadsInput old) (by decide)).1,
    (changes.alikeFor (fun enters => (leadsInput old enters).child (by decide)) (by decide)).1,
    directory changes, fun entries walked entry member => ?_⟩
  have walkedStart : start.walk (suite.analysisOf case) = .ok entries := by
    rw [← walked, FileTree.walk, FileTree.walk, directory before]
  have leadsEntry (enters : old.Enters suite.root) :
      LeadsInto old suite.root "analysis" entry.1 :=
    ((leadsAnalysis start (before.enters_old enters)).walk (fun _ => proper.find?) walkedStart
      member).mono before.workingDirectory_eq before.isDirectory
  exact (changes.alikeFor leadsEntry (by decide)).1

theorem relativePaths_eq (alike : suite.CaseAlike old new case) :
    suite.relativePaths new case = suite.relativePaths old case := by
  have agrees : Attempt.Agrees (fun _ _ => True) old new
      (AnalyzedFile.loadDirectory (suite.analysisOf case)) :=
    AnalyzedFile.agrees_loadDirectory alike.directory alike.analyses
  have same : ((AnalyzedFile.loadDirectory (suite.analysisOf case)).runOn { files := new }).1 =
      ((AnalyzedFile.loadDirectory (suite.analysisOf case)).runOn { files := old }).1 :=
    agrees.result_eq _ _ rfl rfl trivial
  rw [relativePaths, relativePaths, same]

/-- The documents of a case that have snapshots are of the relative paths that the
start tells, in their order. -/
theorem sublist_snapshotPaths_of_assemble {identities : Option CaseIdentities}
    {registry : Registry} {report : AssemblyReport} {machine after : Machine}
    (proper : start.top.Proper) (insideCase : (FilePath.mk case).StaysInside)
    (changes : ChangesIn suite.root "output" start machine.files)
    (ran : (suite.assemble identities registry case).runOn machine = (.ok report, after)) :
    ((report.index.documents.filter (!·.isOutside)).map (·.relativePath)).Sublist
      (suite.snapshotPaths start case) := by
  have alike := caseAlike_of_changesIn proper insideCase (.refl _ _ _) changes
  have part := sublist_relativePaths_of_assemble ran
  rw [relativePaths_eq alike] at part
  have kept := part.filter fun text => !"..".toList.isPrefixOf text.toList
  rwa [List.filter_map] at kept

theorem mem_snapshotPaths_of_assemble {identities : Option CaseIdentities}
    {registry : Registry} {report : AssemblyReport} {machine after : Machine}
    (proper : start.top.Proper) (insideCase : (FilePath.mk case).StaysInside)
    (changes : ChangesIn suite.root "output" start machine.files)
    (ran : (suite.assemble identities registry case).runOn machine = (.ok report, after)) :
    ∀ document ∈ report.index.documents, document.isOutside = false →
      document.relativePath ∈ suite.snapshotPaths start case := by
  intro document member notOutside
  have part := sublist_snapshotPaths_of_assemble proper insideCase changes ran
  exact part.subset
    (List.mem_map_of_mem (List.mem_filter.mpr ⟨member, by simp [notOutside]⟩))

end Changes

end Suite

end SymbolIndex
