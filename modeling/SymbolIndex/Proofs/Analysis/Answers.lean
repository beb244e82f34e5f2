import SymbolIndex.Proofs.Analysis.Completeness

/-!
# Directories of analyses in any world

A world may answer anything about a directory of analyses.  What loading the directory comes
to is told here from these answers alone: a directory that is not seen has no analyses, one
that is seen and cannot be walked through cannot be loaded, and all others have an entry for
each file of analyzer output that is come across, in the order of the paths.
-/

namespace SymbolIndex

namespace World

variable (world : World)

/-- What is read of some entries of a directory, one after the other: each file of analyzer
output with what is found in it, and each entry that cannot be looked at with the reason. -/
def analysesIn : List (FilePath × Except FileError EntryKind) → world.State →
    List AnalyzerOutput × world.State
  | [], state => ([], state)
  | (path, .error error) :: rest, state =>
    let (others, last) := analysesIn rest state
    (⟨path, .error (.read path error)⟩ :: others, last)
  | (_, .ok .directory) :: rest, state => analysesIn rest state
  | (path, .ok .file) :: rest, state =>
    if path.extension? = some "json" then
      let (answer, after) := (Session.readFile path).runIn world state
      let (others, last) := analysesIn rest after
      (⟨path, AnalyzedFile.ofBytes path answer⟩ :: others, last)
    else analysesIn rest state

/-- Whether some files are the analyses that are seen in a directory, in the order of their
paths. -/
inductive HasAnalyses (dir : FilePath) (state : world.State) :
    List AnalyzerOutput → world.State → Prop where
  | missing {after : world.State} (absent : (Session.kind dir).runIn world state = (none, after)) :
    HasAnalyses dir state [] after
  | found {kind : EntryKind} {seen walked : world.State} {files : List AnalyzerOutput}
    {entries : List (FilePath × Except FileError EntryKind)}
    (present : (Session.kind dir).runIn world state = (some kind, seen))
    (walk : (Session.walk dir).runIn world seen = (.ok entries, walked))
    (all : files.Perm (world.analysesIn entries walked).1)
    (ordered : files.Pairwise fun first second => first.path.le second.path) :
    HasAnalyses dir state files (world.analysesIn entries walked).2

/-- Whether a directory is seen and cannot be walked through. -/
inductive CannotWalk (dir : FilePath) (state : world.State) : Prop where
  | intro {kind : EntryKind} {seen after : world.State} {error : FileError}
    (present : (Session.kind dir).runIn world state = (some kind, seen))
    (walk : (Session.walk dir).runIn world seen = (.error error, after))

end World

namespace AnalyzedFile

variable {world : World} {dir : FilePath} {state after : world.State}
  {files : List AnalyzerOutput}

theorem runIn_loadEntries_eq (entries : List (FilePath × Except FileError EntryKind))
    (state : world.State) :
    (loadEntries entries).runIn world state = world.analysesIn entries state := by
  induction entries generalizing state with
  | nil => rfl
  | cons entry rest ih =>
      obtain ⟨path, error | kind⟩ := entry
      · rw [loadEntries, Session.runIn_bind, Session.runIn_bind, World.analysesIn, ← ih]
        rfl
      · cases kind with
        | directory =>
            rw [loadEntries, Session.runIn_bind, Session.runIn_bind, World.analysesIn, ← ih]
            rfl
        | file =>
            have loaded : (load path).run.runIn world state = _ := runIn_load path state
            rw [loadEntries, World.analysesIn, Session.runIn_bind, Session.runIn_bind, loadEntry]
            split
            · rw [Session.runIn_bind, loaded, ih]
              rfl
            · rw [ih]
              rfl

/-- Loading a directory comes to the analyses that are seen in it, or fails where it cannot
be walked through. -/
theorem runIn_loadDirectory_cases (dir : FilePath) (state : world.State) :
    (∃ files after, (loadDirectory dir).runIn world state = (.ok files, after) ∧
        world.HasAnalyses dir state files after) ∨
      ∃ error after, (loadDirectory dir).runIn world state = (.error error, after) ∧
        world.CannotWalk dir state := by
  rw [loadDirectory, Attempt.runIn_lift_bind, Session.pathExists, Session.runIn_bind]
  rcases asked : (Session.kind dir).runIn world state with ⟨_ | kind, seen⟩
  · exact .inl ⟨[], seen, rfl, .missing asked⟩
  · change (∃ files after, (Attempt.ofSession _ (Session.walk dir) >>= _).runIn world seen = _ ∧ _) ∨
      ∃ error after, (Attempt.ofSession _ (Session.walk dir) >>= _).runIn world seen = _ ∧ _
    rw [Attempt.runIn_bind, Attempt.runIn_ofSession]
    rcases walk : (Session.walk dir).runIn world seen with ⟨error | entries, walked⟩
    · exact .inr ⟨_, walked, rfl, .intro asked walk⟩
    · refine .inl ⟨sortFiles (world.analysesIn entries walked).1,
        (world.analysesIn entries walked).2, ?_,
        .found asked walk (List.mergeSort_perm _ _) (pairwise_sortFiles _)⟩
      simp only [Fallible.mapError_ok]
      rw [Attempt.runIn_lift_bind, runIn_loadEntries_eq]
      rfl

end AnalyzedFile

/-- The analysis in a file is what is found in its bytes. -/
theorem FileTree.analysis_eq_ofBytes (tree : FileTree) (path : FilePath) :
    tree.analysis path = AnalyzedFile.ofBytes path (tree.read path) := by
  rw [analysis, readText, AnalyzedFile.ofBytes.eq_def]
  cases tree.read path with
  | error error => rfl
  | ok bytes =>
      dsimp only
      cases String.fromUTF8? bytes <;> rfl

namespace World

variable {filter : LogFilter} {machine : Machine} {dir : FilePath}

/-- On a machine a directory that is seen can be walked through. -/
theorem not_cannotWalk_ofMachine :
    ¬ (ofMachine.filtered filter).CannotWalk dir machine := by
  rintro ⟨present, walk⟩
  cases congrArg Prod.snd present
  have seen := congrArg Prod.fst present
  have walked := congrArg Prod.fst walk
  change machine.files.kind? dir = _ at seen
  change (machine.files.walk dir).map _ = _ at walked
  cases found : machine.files.node dir with
  | error error =>
      rw [FileTree.kind?_of_node_error found] at seen
      cases seen
  | ok node =>
      rw [FileTree.walk_of_node found] at walked
      cases walked

theorem analysesIn_ofMachine (entries : List (FilePath × EntryKind)) (machine : Machine) :
    (ofMachine.filtered filter).analysesIn (entries.map fun entry => (entry.1, .ok entry.2))
      machine = (machine.files.analysesIn entries, machine) := by
  induction entries with
  | nil => rfl
  | cons entry rest ih =>
      obtain ⟨path, kind⟩ := entry
      cases kind with
      | directory => exact ih
      | file =>
          have read : (Session.readFile path).runIn (ofMachine.filtered filter) machine =
              (machine.files.read path, machine) := rfl
          rw [List.map_cons, analysesIn, read]
          by_cases isJson : path.extension? = some "json"
          · rw [if_pos isJson]
            dsimp only
            rw [ih, ← FileTree.analysis_eq_ofBytes]
            simp [FileTree.analysesIn, FileTree.isAnalysis, isJson]
          · rw [if_neg isJson, ih]
            simp [FileTree.analysesIn, FileTree.isAnalysis, isJson]

/-- On a machine, the analyses that are seen in a directory are those that its files tell, and
seeing them leaves the machine as it is. -/
theorem HasAnalyses.perm_of_machine {files : List AnalyzerOutput} {last : Machine}
    (has : (ofMachine.filtered filter).HasAnalyses dir machine files last) :
    files.Perm (machine.files.analysesIn (machine.files.entriesBelow dir)) ∧
      files.Pairwise (fun first second => first.path.le second.path) ∧ last = machine := by
  rcases has with absent | ⟨present, walk, all, ordered⟩
  · cases congrArg Prod.snd absent
    have absent := congrArg Prod.fst absent
    change machine.files.kind? dir = _ at absent
    cases found : machine.files.node dir with
    | error error =>
        rw [FileTree.entriesBelow, FileTree.walk_of_node_error found]
        exact ⟨.refl _, .nil, rfl⟩
    | ok node =>
        rw [FileTree.kind?_of_node found] at absent
        cases absent
  · cases congrArg Prod.snd present
    cases congrArg Prod.snd walk
    have walked := congrArg Prod.fst walk
    change (machine.files.walk dir).map _ = _ at walked
    obtain ⟨entries, isWalk, rfl⟩ := Fallible.map_eq_ok.mp walked
    have same := @analysesIn_ofMachine filter entries machine
    rw [FileTree.entriesBelow, isWalk]
    exact ⟨all.trans (.of_eq (congrArg Prod.fst same)), ordered, congrArg Prod.snd same⟩

end World
end SymbolIndex
