import SymbolIndex.Analysis.Directory
import SymbolIndex.Proofs.Machine.Following
import SymbolIndex.Proofs.Machine.Runs
import Mathlib.Data.List.Nodup

/-!
# Loading analyses from a tree of files

What a directory of analyses holds can be told from a tree of files alone.  Loading
it comes to that on every machine with these files and leaves the machine as it is.
-/

namespace SymbolIndex

namespace FileTree

variable (tree : FileTree)

/-- The analysis in a file. -/
def analysis (path : FilePath) : Except AnalysisError AnalyzedFile :=
  match tree.readText path with
  | .error error => .error (.read path error)
  | .ok text =>
    match AnalyzedFile.read? text with
    | some analysis => .ok analysis
    | none => .error (.parse path)

/-- Whether an entry of a directory is a file of analyzer output. -/
def isAnalysis (entry : FilePath × EntryKind) : Bool :=
  entry.2 = .file && entry.1.extension? = some "json"

/-- The analyses in some entries of a directory, in the order of the entries. -/
def analysesIn (entries : List (FilePath × EntryKind)) : List AnalyzerOutput :=
  (entries.filter isAnalysis).map fun entry => ⟨entry.1, tree.analysis entry.1⟩

/-- The entries at and below a directory; a directory that is not there has none. -/
def entriesBelow (dir : FilePath) : List (FilePath × EntryKind) :=
  (tree.walk dir).toOption.getD []

/-- The analyses in a directory and below it, in the order of their paths. -/
def analyses (dir : FilePath) : List AnalyzerOutput :=
  AnalyzedFile.sortFiles (tree.analysesIn (tree.entriesBelow dir))

end FileTree

namespace AnalyzedFile

theorem pairwise_sortFiles (files : List AnalyzerOutput) :
    (sortFiles files).Pairwise fun first second => first.path.le second.path := by
  apply List.pairwise_mergeSort
  · exact fun first second third => FilePath.le_trans first.path second.path third.path
  · exact fun first second => FilePath.le_total first.path second.path

/-- Files in the order of their paths are known when it is known which they are, and when the
order tells all of them apart. -/
theorem eq_of_perm_of_before {files others : List AnalyzerOutput} (perm : files.Perm others)
    (ordered : files.Pairwise fun first second => first.path.le second.path)
    (before : (others.map (·.path)).Pairwise FilePath.Before) : files = others := by
  have apart := List.pairwise_map.mp before
  have distinct : (others.map (·.path.components)).Nodup :=
    List.pairwise_map.mpr (apart.imp fun before => before.2)
  refine perm.eq_of_pairwise (fun first second isFirst isSecond ab ba => ?_) ordered
    (apart.imp fun before => before.1)
  exact List.inj_on_of_nodup_map distinct (perm.mem_iff.mp isFirst) isSecond
    (FilePath.stepsLe_antisymm ab ba)

variable (machine : Machine)

theorem runOn_load (path : FilePath) :
    (load path).runOn machine = (machine.files.analysis path, machine) := by
  rw [load, Attempt.runOn_bind, Attempt.runOn_ofSession, Session.run_readText, FileTree.analysis]
  cases machine.files.readText path with
  | error error => rfl
  | ok text =>
      dsimp only [Fallible.mapError_ok]
      cases read? text <;> rfl

theorem run_loadEntry (entry : FilePath × EntryKind) :
    (loadEntry entry.1 (.ok entry.2)).run machine =
      (if FileTree.isAnalysis entry then some ⟨entry.1, machine.files.analysis entry.1⟩ else none,
        machine) := by
  obtain ⟨path, kind⟩ := entry
  cases kind with
  | directory => rfl
  | file =>
      by_cases json : path.extension? = some "json"
      · have loaded : (load path).run.run machine = (machine.files.analysis path, machine) :=
          runOn_load machine path
        simp [loadEntry, FileTree.isAnalysis, json, loaded]
      · simp [loadEntry, FileTree.isAnalysis, json]

theorem run_loadEntries (entries : List (FilePath × EntryKind)) :
    (loadEntries (entries.map fun entry => (entry.1, .ok entry.2))).run machine =
      (machine.files.analysesIn entries, machine) := by
  induction entries with
  | nil => rfl
  | cons entry rest ih =>
      rw [List.map_cons, loadEntries, Session.run_bind, run_loadEntry, Session.run_bind, ih]
      by_cases isAnalysis : FileTree.isAnalysis entry = true
      · simp [FileTree.analysesIn, isAnalysis]
      · simp [FileTree.analysesIn, isAnalysis]

/-- Loading a directory comes to the analyses that the files of the machine tell. -/
theorem runOn_loadDirectory (dir : FilePath) :
    (loadDirectory dir).runOn machine = (.ok (machine.files.analyses dir), machine) := by
  rw [loadDirectory, Attempt.runOn_bind, Attempt.runOn_lift, Session.run_pathExists]
  cases found : machine.files.node dir with
  | error error =>
      have nothing : machine.files.entriesBelow dir = [] := by
        rw [FileTree.entriesBelow, FileTree.walk_of_node_error found]
        rfl
      simp [FileTree.kind?_of_node_error found, FileTree.analyses, nothing, FileTree.analysesIn, sortFiles]
  | ok node =>
      have loaded := run_loadEntries machine (node.walk dir)
      simp [FileTree.kind?_of_node found, FileTree.walk_of_node found, Attempt.runOn_bind, Except.map, loaded,
        FileTree.analyses, FileTree.entriesBelow, Except.toOption]

end AnalyzedFile

namespace FileTree

variable {tree : FileTree} {dir : FilePath}

/-- Analyses that are found in the order of their paths stay in it. -/
theorem analyses_eq_of_ordered
    (ordered : (tree.analysesIn (tree.entriesBelow dir)).Pairwise fun first second =>
      first.path.le second.path) :
    tree.analyses dir = tree.analysesIn (tree.entriesBelow dir) :=
  List.mergeSort_of_pairwise ordered

/-- Analyses in the order of their paths are known when it is known which paths a walk comes
across, and their strict order. -/
theorem eq_map_of_before {files : List AnalyzerOutput} {paths : List FilePath}
    (found : files.Perm (tree.analysesIn (tree.entriesBelow dir)))
    (ordered : files.Pairwise fun first second => first.path.le second.path)
    (perm : paths.Perm (((tree.entriesBelow dir).filter isAnalysis).map Prod.fst))
    (before : paths.Pairwise FilePath.Before) :
    files = paths.map fun path => ⟨path, tree.analysis path⟩ := by
  have mapped := perm.symm.map fun path => AnalyzerOutput.mk path (tree.analysis path)
  rw [List.map_map] at mapped
  refine AnalyzedFile.eq_of_perm_of_before (found.trans mapped) ordered ?_
  simpa [Function.comp_def] using before

theorem analyses_eq_of_before {paths : List FilePath}
    (perm : paths.Perm (((tree.entriesBelow dir).filter isAnalysis).map Prod.fst))
    (before : paths.Pairwise FilePath.Before) :
    tree.analyses dir = paths.map fun path => ⟨path, tree.analysis path⟩ :=
  eq_map_of_before (List.mergeSort_perm _ _) (AnalyzedFile.pairwise_sortFiles _) perm before

end FileTree

end SymbolIndex
