import SymbolIndex.Proofs.Analysis.Loading
import SymbolIndex.Proofs.Machine.Walks
import SymbolIndex.Proofs.Machine.Worlds
import SymbolIndex.Proofs.ReadOnly

/-!
# All analyses of a directory

Loading a directory comes to one entry for each file of analyzer output below it, in the
strict order of their paths, and each entry is what loading this file alone comes to.  So
the order in which the files are come across has no part in it, and other bytes in one
file change the entry of this file at most.
-/

namespace SymbolIndex

/-- A world that shows its files as they are, but for those that it refuses to read, and
that comes across what is below a directory in any order. -/
structure World.Shows (world : World) (refusal : FilePath → Option FileError) : Prop where
  kind : ∀ path state, (world.answer (.kind path) state).1 = (world.files state).kind? path
  readFile : ∀ path state, (world.answer (.readFile path) state).1 =
    match refusal path with
    | some error => .error error
    | none => (world.files state).read path
  walk : ∀ path state entries, (world.files state).walk path = .ok entries →
    ∃ shown : List (FilePath × EntryKind), shown.Perm entries ∧
      (world.answer (.walk path) state).1 = .ok (shown.map fun entry => (entry.1, .ok entry.2))

namespace FileTree

variable {tree old new : FileTree} {dir : FilePath} {names : List String}

/-- Whether names lead from a directory to a file of analyzer output. -/
structure HasAnalysis (tree : FileTree) (dir : FilePath) (names : List String) : Prop where
  there : (tree.kind? dir).isSome = true
  isFile : (tree.fileAt (tree.placeOf dir ++ names)).isSome = true
  isJson : (dir.below names).extension? = some "json"

/-- What a walk through a directory comes to that is a file of analyzer output. -/
def foundAnalyses (node : FileNode) (dir : FilePath) : List (List String) :=
  (node.places.filter fun (names, kind) => isAnalysis (dir.below names, kind)).map Prod.fst

/-- The names that lead from a directory to its analyses, in the order of their paths. -/
def analysisPlaces (tree : FileTree) (dir : FilePath) : List (List String) :=
  match tree.node dir with
  | .error _ => []
  | .ok node =>
    (foundAnalyses node dir).mergeSort fun names others => (dir.below names).le (dir.below others)

theorem mem_foundAnalyses {node : FileNode} (proper : node.Proper) :
    names ∈ foundAnalyses node dir ↔
      (∃ inner, node.find? names = some inner ∧ inner.kind = .file) ∧
        (dir.below names).extension? = some "json" := by
  rw [← FileNode.mem_places proper, foundAnalyses, List.mem_map]
  constructor
  · rintro ⟨⟨_, kind⟩, member, rfl⟩
    obtain ⟨isPlace, isAnalysis⟩ := List.mem_filter.mp member
    simp only [FileTree.isAnalysis, Bool.and_eq_true, decide_eq_true_eq] at isAnalysis
    obtain ⟨rfl, isJson⟩ := isAnalysis
    exact ⟨isPlace, isJson⟩
  · rintro ⟨isPlace, isJson⟩
    exact ⟨(names, .file), List.mem_filter.mpr ⟨isPlace, by simp [isAnalysis, isJson]⟩, rfl⟩

section Proper

variable (proper : tree.top.Proper)
include proper

theorem proper_of_node {node : FileNode} (found : tree.node dir = .ok node) : node.Proper :=
  proper.find? (node_eq_ok.mp found).2

theorem mem_analysisPlaces : names ∈ tree.analysisPlaces dir ↔ tree.HasAnalysis dir names := by
  rw [analysisPlaces]
  cases found : tree.node dir with
  | error error =>
      simp only [List.not_mem_nil, false_iff]
      rintro ⟨there, -, -⟩
      rw [kind?_of_node_error found] at there
      cases there
  | ok node =>
      rw [List.mem_mergeSort, mem_foundAnalyses (proper_of_node proper found),
        exists_find?_iff found]
      constructor
      · rintro ⟨isFile, isJson⟩
        exact ⟨by rw [kind?_of_node found]; rfl, isFile, isJson⟩
      · rintro ⟨-, isFile, isJson⟩
        exact ⟨isFile, isJson⟩

theorem nodup_analysisPlaces (dir : FilePath) : (tree.analysisPlaces dir).Nodup := by
  rw [analysisPlaces]
  cases found : tree.node dir with
  | error error => exact List.nodup_nil
  | ok node =>
      have distinct := FileNode.nodup_places (proper_of_node proper found)
      exact (List.mergeSort_perm _ _).nodup_iff.mpr
        (distinct.sublist (List.filter_sublist.map Prod.fst))

theorem isName_of_mem_analysisPlaces (isPlace : names ∈ tree.analysisPlaces dir) :
    ∀ name ∈ names, FilePath.IsName name := by
  rw [analysisPlaces] at isPlace
  cases found : tree.node dir with
  | error error => simp [found] at isPlace
  | ok node =>
      have nodeProper := proper_of_node proper found
      rw [found, List.mem_mergeSort, mem_foundAnalyses nodeProper] at isPlace
      obtain ⟨⟨inner, reached, -⟩, -⟩ := isPlace
      exact nodeProper.isName_of_find? reached

theorem eq_of_le_of_mem_analysisPlaces {others : List String}
    (isPlace : names ∈ tree.analysisPlaces dir) (isOther : others ∈ tree.analysisPlaces dir)
    (before : (dir.below names).le (dir.below others))
    (after : (dir.below others).le (dir.below names)) : names = others :=
  FilePath.eq_of_components_below (isName_of_mem_analysisPlaces proper isPlace)
    (isName_of_mem_analysisPlaces proper isOther) (FilePath.stepsLe_antisymm before after)

end Proper

theorem pairwise_analysisPlaces (tree : FileTree) (dir : FilePath) :
    (tree.analysisPlaces dir).Pairwise fun names others =>
      (dir.below names).le (dir.below others) := by
  rw [analysisPlaces]
  cases tree.node dir with
  | error error => exact .nil
  | ok node =>
      apply List.pairwise_mergeSort
      · exact fun first second third => FilePath.le_trans _ _ _
      · exact fun first second => FilePath.le_total _ _

/-- The places of the analyses are in the strict order of their paths. -/
theorem before_analysisPlaces (proper : tree.top.Proper) (dir : FilePath) :
    ((tree.analysisPlaces dir).map dir.below).Pairwise FilePath.Before := by
  have ordered := (tree.pairwise_analysisPlaces dir).and (nodup_analysisPlaces proper dir)
  rw [List.pairwise_map]
  refine ordered.imp_of_mem fun isPlace isOther ⟨before, different⟩ => ⟨before, fun same => ?_⟩
  exact different (FilePath.eq_of_components_below (isName_of_mem_analysisPlaces proper isPlace)
    (isName_of_mem_analysisPlaces proper isOther) same)

/-- The places of the analyses can be told from the shape of the tree. -/
theorem analysisPlaces_congr (proper : old.top.Proper) (newProper : new.top.Proper)
    (same : SameShape old new) (dir : FilePath) :
    new.analysisPlaces dir = old.analysisPlaces dir := by
  have sameMembers : ∀ names, names ∈ new.analysisPlaces dir ↔ names ∈ old.analysisPlaces dir := by
    intro names
    rw [mem_analysisPlaces newProper, mem_analysisPlaces proper]
    constructor
    · rintro ⟨there, isFile, isJson⟩
      rw [same.isSome_kind?] at there
      rw [same.files, same.placeOf] at isFile
      exact ⟨there, isFile, isJson⟩
    · rintro ⟨there, isFile, isJson⟩
      rw [← same.isSome_kind?] at there
      rw [← same.files, ← same.placeOf] at isFile
      exact ⟨there, isFile, isJson⟩
  refine List.Perm.eq_of_pairwise (fun names others isPlace isOther before after => ?_)
    (new.pairwise_analysisPlaces dir) (old.pairwise_analysisPlaces dir) ?_
  · have wasPlace := (sameMembers names).mp isPlace
    exact eq_of_le_of_mem_analysisPlaces proper wasPlace isOther before after
  · exact (List.perm_ext_iff_of_nodup (nodup_analysisPlaces newProper dir)
      (nodup_analysisPlaces proper dir)).mpr sameMembers

end FileTree

namespace AnalyzedFile

variable {world other : World} {refusal : FilePath → Option FileError} {path : FilePath}
  {state : world.State} {otherState : other.State}

/-- The entry of a file when nothing else is loaded. -/
def loadedAlone (world : World) (state : world.State) (path : FilePath) : AnalyzerOutput :=
  ⟨path, ((load path).runIn world state).1⟩

/-- What is loaded from the bytes of a file, or from the reason why there are none. -/
def ofBytes (path : FilePath) : Except FileError ByteArray → Except AnalysisError AnalyzedFile
  | .error error => .error (.read path error)
  | .ok bytes =>
    match String.fromUTF8? bytes with
    | none => .error (.read path .notText)
    | some text =>
      match read? text with
      | some analysis => .ok analysis
      | none => .error (.parse path)

theorem runIn_load (path : FilePath) (state : world.State) :
    (load path).runIn world state =
      (ofBytes path (world.answer (.readFile path) state).1,
        (world.answer (.readFile path) state).2) := by
  have asked : (Session.readFile path).runIn world state = world.answer (.readFile path) state :=
    rfl
  rw [load, Attempt.runIn_bind, Attempt.runIn_ofSession, Session.readText, Session.runIn_bind,
    asked]
  rcases world.answer (.readFile path) state with ⟨answer, after⟩
  cases answer with
  | error error => rfl
  | ok bytes =>
      simp only [ofBytes]
      cases String.fromUTF8? bytes with
      | none => rfl
      | some text =>
          have decoded : (Session.runIn world (pure (.ok text)) after :
              Except FileError String × world.State) = (.ok text, after) := rfl
          simp only [decoded, Fallible.mapError_ok]
          cases read? text <;> rfl

/-- Loading a file depends on nothing but what is read in its place. -/
theorem loadedAlone_congr (sameAnswer : (other.answer (.readFile path) otherState).1 =
    (world.answer (.readFile path) state).1) :
    loadedAlone other otherState path = loadedAlone world state path := by
  rw [loadedAlone, loadedAlone, runIn_load, runIn_load, sameAnswer]

theorem loadedAlone_of_shows (shows : world.Shows refusal) {after : world.State}
    (sameFiles : world.files after = world.files state) :
    loadedAlone world after path = loadedAlone world state path :=
  loadedAlone_congr (by rw [shows.readFile, shows.readFile, sameFiles])

theorem runIn_loadEntry (entry : FilePath × EntryKind) (state : world.State) :
    ((loadEntry entry.1 (.ok entry.2)).runIn world state).1 =
      if FileTree.isAnalysis entry then some (loadedAlone world state entry.1) else none := by
  obtain ⟨path, kind⟩ := entry
  cases kind with
  | directory => rfl
  | file =>
      by_cases isJson : path.extension? = some "json"
      · rw [loadEntry, if_pos isJson, Session.runIn_bind]
        simp only [FileTree.isAnalysis, isJson]
        rfl
      · rw [loadEntry, if_neg isJson]
        simp only [FileTree.isAnalysis, isJson]
        rfl

/-- Files are loaded one after the other as each of them is loaded alone. -/
theorem runIn_loadEntries (shows : world.Shows refusal) (entries : List (FilePath × EntryKind))
    {after : world.State} (sameFiles : world.files after = world.files state) :
    ((loadEntries (entries.map fun entry => (entry.1, .ok entry.2))).runIn world after).1 =
      (entries.filter FileTree.isAnalysis).map fun entry => loadedAlone world state entry.1 := by
  induction entries generalizing after with
  | nil => rfl
  | cons entry rest ih =>
      have stillSame : world.files ((loadEntry entry.1 (.ok entry.2)).runIn world after).2 =
          world.files state :=
        (Session.files_runIn_of_only (isQuiet_loadEntry entry.1 _).reads after).trans sameFiles
      rw [List.map_cons, loadEntries, Session.runIn_bind, Session.runIn_bind]
      change ((loadEntry entry.1 (.ok entry.2)).runIn world after).1.toList ++ _ = _
      rw [ih stillSame, runIn_loadEntry, loadedAlone_of_shows shows sameFiles]
      by_cases isAnalysis : FileTree.isAnalysis entry = true
      · simp [isAnalysis]
      · simp [isAnalysis]

/-- Files that are come across in any order are sorted into the order of the places. -/
theorem sortFiles_eq {tree : FileTree} {dir : FilePath} {node : FileNode}
    (proper : tree.top.Proper) (found : tree.node dir = .ok node)
    {shown : List (FilePath × EntryKind)} (same : shown.Perm (node.walk dir))
    (entryOf : FilePath → AnalyzerOutput) (pathOf : ∀ path, (entryOf path).path = path) :
    sortFiles ((shown.filter FileTree.isAnalysis).map fun entry => entryOf entry.1) =
      (tree.analysisPlaces dir).map fun names => entryOf (dir.below names) := by
  have permuted : ((shown.filter FileTree.isAnalysis).map fun entry => entryOf entry.1).Perm
      ((tree.analysisPlaces dir).map fun names => entryOf (dir.below names)) := by
    have walked : ((node.walk dir).filter FileTree.isAnalysis).map (fun entry => entryOf entry.1) =
        (FileTree.foundAnalyses node dir).map fun names => entryOf (dir.below names) := by
      rw [FileNode.walk_eq, List.filter_map, List.map_map, FileTree.foundAnalyses, List.map_map]
      rfl
    have sorted : (tree.analysisPlaces dir).Perm (FileTree.foundAnalyses node dir) := by
      rw [FileTree.analysisPlaces, found]
      exact List.mergeSort_perm _ _
    refine ((same.filter _).map _).trans ?_
    rw [walked]
    exact (sorted.map _).symm
  refine List.Perm.eq_of_pairwise (fun first second isFirst isSecond before after => ?_)
    (pairwise_sortFiles _) ?_ ((List.mergeSort_perm _ _).trans permuted)
  · rw [sortFiles, List.mem_mergeSort, permuted.mem_iff] at isFirst
    obtain ⟨names, isPlace, rfl⟩ := List.mem_map.mp isFirst
    obtain ⟨others, isOther, rfl⟩ := List.mem_map.mp isSecond
    rw [pathOf, pathOf] at before after
    rw [FileTree.eq_of_le_of_mem_analysisPlaces proper isPlace isOther before after]
  · rw [List.pairwise_map]
    simp only [pathOf]
    exact tree.pairwise_analysisPlaces dir

end AnalyzedFile

namespace FileTree

/-- Whether some entries are the analyses of a directory: one for each file of analyzer output
that a walk comes across, with what is in the file, in the order of the paths.  Where the
names of each directory can be told apart, the order is strict and the files are those that
names lead to. -/
structure AreAnalyses (tree : FileTree) (dir : FilePath) (files : List AnalyzerOutput) : Prop where
  found : files.Perm (tree.analysesIn (tree.entriesBelow dir))
  ordered : files.Pairwise fun first second => first.path.le second.path
  strict : tree.top.Proper → (files.map (·.path)).Pairwise FilePath.Before
  places : tree.top.Proper → ∃ places : List (List String),
    (∀ names, names ∈ places ↔ tree.HasAnalysis dir names) ∧
      files = places.map fun names => ⟨dir.below names, tree.analysis (dir.below names)⟩

theorem analyses_eq_of_proper {tree : FileTree} (proper : tree.top.Proper) (dir : FilePath) :
    tree.analyses dir = (tree.analysisPlaces dir).map fun names =>
      ⟨dir.below names, tree.analysis (dir.below names)⟩ := by
  cases found : tree.node dir with
  | error error =>
      rw [analyses, entriesBelow, walk_of_node_error found, analysisPlaces, found]
      exact List.mergeSort_nil
  | ok node =>
      rw [analyses, entriesBelow, walk_of_node found]
      exact AnalyzedFile.sortFiles_eq proper found (.refl _)
        (fun path => ⟨path, tree.analysis path⟩) fun _ => rfl

theorem areAnalyses_analyses (tree : FileTree) (dir : FilePath) :
    tree.AreAnalyses dir (tree.analyses dir) where
  found := List.mergeSort_perm _ _
  ordered := AnalyzedFile.pairwise_sortFiles _
  strict proper := by
    rw [analyses_eq_of_proper proper, List.map_map]
    exact before_analysisPlaces proper dir
  places proper :=
    ⟨tree.analysisPlaces dir, fun _ => mem_analysisPlaces proper, analyses_eq_of_proper proper dir⟩

end FileTree

namespace AnalyzedFile

variable {world other : World} {refusal : FilePath → Option FileError} {path : FilePath}
  {state : world.State} {otherState : other.State}

/-- Loading a directory comes to an entry for each place with an analysis, which is what
loading the file there alone comes to. -/
theorem runIn_loadDirectory (shows : world.Shows refusal)
    (proper : (world.files state).top.Proper) (dir : FilePath) :
    ((loadDirectory dir).runIn world state).1 = .ok (((world.files state).analysisPlaces dir).map
      fun names => loadedAlone world state (dir.below names)) := by
  have asked : ((Session.pathExists dir).runIn world state).1 =
      ((world.files state).kind? dir).isSome := by
    rw [← shows.kind]
    rfl
  have sameFiles : world.files ((Session.pathExists dir).runIn world state).2 =
      world.files state :=
    Session.files_runIn_of_only (Session.only_pathExists rfl) state
  rw [loadDirectory, Attempt.runIn_lift_bind, asked]
  generalize ((Session.pathExists dir).runIn world state).2 = middle at sameFiles
  cases found : (world.files state).node dir with
  | error error =>
      rw [FileTree.kind?_of_node_error found, FileTree.analysisPlaces, found]
      rfl
  | ok node =>
      have walks : (world.files middle).walk dir = .ok (node.walk dir) := by
        rw [sameFiles, FileTree.walk_of_node found]
      obtain ⟨shown, permuted, walked⟩ := shows.walk dir middle _ walks
      have stillSame : world.files ((Session.walk dir).runIn world middle).2 = world.files state :=
        (world.keeps (.walk dir) middle rfl).trans sameFiles
      have ran : (Session.walk dir).runIn world middle =
          (.ok (shown.map fun entry => (entry.1, .ok entry.2)),
            ((Session.walk dir).runIn world middle).2) := Prod.ext walked rfl
      have loaded := runIn_loadEntries shows shown stillSame
      rw [FileTree.kind?_of_node found, Option.isSome_some, if_pos rfl, Attempt.runIn_bind, Attempt.runIn_ofSession, ran]
      simp only [Fallible.mapError_ok]
      rw [Attempt.runIn_lift_bind, loaded,
        sortFiles_eq proper found permuted (loadedAlone world state) fun _ => rfl]
      rfl

/-- A file that is the same in two trees of the same shape is loaded alike from both. -/
theorem loadedAlone_of_sameShape (shows : world.Shows refusal) (otherShows : other.Shows refusal)
    (same : FileTree.SameShape (world.files state) (other.files otherState))
    (sameFile : (other.files otherState).fileAt ((world.files state).placeOf path) =
      (world.files state).fileAt ((world.files state).placeOf path)) :
    loadedAlone other otherState path = loadedAlone world state path :=
  loadedAlone_congr (by rw [shows.readFile, otherShows.readFile, same.read sameFile])

/-- Loading a directory comes to one entry for each file of analyzer output below it, in the
strict order of their paths, and each entry is what loading the file alone comes to.  In
another world with directories and files in the same places, but with entries in another
order or with other bytes in the files, the entries of the files that have the same bytes
are the same, and so is the result if all files have. -/
theorem loadDirectory_complete (shows : world.Shows refusal)
    (proper : (world.files state).top.Proper) (dir : FilePath) :
    ∃ places : List (List String), places.Nodup ∧
      (∀ names, names ∈ places ↔ (world.files state).HasAnalysis dir names) ∧
      (places.map dir.below).Pairwise FilePath.Before ∧
      ((loadDirectory dir).runIn world state).1 =
        .ok (places.map fun names => loadedAlone world state (dir.below names)) ∧
      ∀ (other : World) (otherState : other.State), other.Shows refusal →
        (other.files otherState).top.Proper →
        FileTree.SameShape (world.files state) (other.files otherState) →
          ((loadDirectory dir).runIn other otherState).1 =
            .ok (places.map fun names => loadedAlone other otherState (dir.below names)) ∧
          (∀ names ∈ places,
            (other.files otherState).fileAt ((world.files state).placeOf dir ++ names) =
              (world.files state).fileAt ((world.files state).placeOf dir ++ names) →
            loadedAlone other otherState (dir.below names) =
              loadedAlone world state (dir.below names)) ∧
          ((other.files otherState).fileAt = (world.files state).fileAt →
            ((loadDirectory dir).runIn other otherState).1 =
              ((loadDirectory dir).runIn world state).1) := by
  have loaded := runIn_loadDirectory shows proper dir
  refine ⟨(world.files state).analysisPlaces dir, FileTree.nodup_analysisPlaces proper dir,
    fun names => FileTree.mem_analysisPlaces proper, FileTree.before_analysisPlaces proper dir,
    loaded, fun other otherState otherShows otherProper same => ?_⟩
  have otherLoaded := runIn_loadDirectory otherShows otherProper dir
  rw [FileTree.analysisPlaces_congr proper otherProper same] at otherLoaded
  have sameEntry : ∀ names ∈ (world.files state).analysisPlaces dir,
      (other.files otherState).fileAt ((world.files state).placeOf dir ++ names) =
        (world.files state).fileAt ((world.files state).placeOf dir ++ names) →
      loadedAlone other otherState (dir.below names) =
        loadedAlone world state (dir.below names) := by
    intro names isPlace sameFile
    have areNames := FileTree.isName_of_mem_analysisPlaces proper isPlace
    rw [← FileTree.placeOf_below _ _ areNames] at sameFile
    exact loadedAlone_of_sameShape shows otherShows same sameFile
  refine ⟨otherLoaded, sameEntry, fun sameFiles => ?_⟩
  rw [otherLoaded, loaded, List.map_congr_left fun names isPlace =>
    sameEntry names isPlace (congrFun sameFiles _)]

end AnalyzedFile

theorem World.shows_ofMachine : ofMachine.Shows fun _ => none where
  kind _ _ := rfl
  readFile _ _ := rfl
  walk path machine entries walked := by
    refine ⟨entries, .refl _, ?_⟩
    change (machine.files.walk path).map _ = _
    rw [walked]
    rfl

/-- A world in which walks come across everything the other way round. -/
@[reducible]
def World.backwards (world : World) : World where
  State := world.State
  files := world.files
  answer
    | .walk path, state =>
      ((world.answer (.walk path) state).1.map List.reverse, (world.answer (.walk path) state).2)
    | request, state => world.answer request state
  keeps request state reads := by
    cases request <;> exact world.keeps _ state reads
  changes request state changing := by
    cases request
    case walk => cases changing
    all_goals exact world.changes _ state changing

theorem World.Shows.backwards {world : World} {refusal : FilePath → Option FileError}
    (shows : world.Shows refusal) : world.backwards.Shows refusal where
  kind := shows.kind
  readFile := shows.readFile
  walk path state entries walked := by
    obtain ⟨shown, permuted, answered⟩ := shows.walk path state entries walked
    refine ⟨shown.reverse, shown.reverse_perm.trans permuted, ?_⟩
    change (world.answer (.walk path) state).1.map List.reverse = _
    rw [answered, List.map_reverse]
    rfl

/-- A machine with the output of an analyzer, in which one file has the given text. -/
def outputMachine (text : String) : Machine where
  files := ⟨.directory [("out", .directory [("b.json", .file text.toUTF8),
    ("a-b.json", .file "x".toUTF8), ("a", .directory [("z.json", .file "[\"a\"]".toUTF8)]),
    ("a.txt", .file .empty)])], []⟩

theorem proper_outputMachine (text : String) : (outputMachine text).files.top.Proper := by
  have ofNames {entries : List (String × FileNode)} (names : List String)
      (same : entries.map Prod.fst = names) (areNames : ∀ name ∈ names, FilePath.IsName name)
      (distinct : names.Nodup) (inner : ∀ entry ∈ entries, entry.2.Proper) :
      (FileNode.directory entries).Proper := by
    subst same
    exact .directory (fun entry member => areNames entry.1 (List.mem_map_of_mem member)) distinct
      inner
  have innermost : (FileNode.directory [("z.json", .file "[\"a\"]".toUTF8)]).Proper :=
    ofNames ["z.json"] rfl (by decide) (by decide) (by simp [FileNode.Proper.file])
  refine ofNames ["out"] rfl (by decide) (by decide) ?_
  rw [List.forall_mem_singleton]
  refine ofNames ["b.json", "a-b.json", "a", "a.txt"] rfl (by decide) (by decide) ?_
  simp only [List.forall_mem_cons, List.not_mem_nil, false_imp_iff, implies_true, and_true]
  exact ⟨.file _, .file _, innermost, .file _⟩

theorem sameShape_outputMachine (text other : String) :
    FileTree.SameShape (outputMachine text).files (outputMachine other).files := by
  have isFile : ((outputMachine text).files.fileAt (["out"] ++ ["b.json"])).isSome = true := rfl
  exact FileTree.sameShape_putAt isFile other.toUTF8

theorem loadDirectory_complete_of_outputs :
    ∃ places : List (List String),
      (∀ names ∈ [["a", "z.json"], ["a-b.json"], ["b.json"]], names ∈ places) ∧
      ["a.txt"] ∉ places ∧ (places.map (FilePath.mk "out").below).Pairwise FilePath.Before ∧
      ((AnalyzedFile.loadDirectory ⟨"out"⟩).runIn World.ofMachine.backwards
        (outputMachine "[]")).1 = .ok (places.map fun names =>
          AnalyzedFile.loadedAlone World.ofMachine.backwards (outputMachine "[]")
            ((FilePath.mk "out").below names)) ∧
      AnalyzedFile.loadedAlone World.ofMachine.backwards (outputMachine "[]") ⟨"out/a/z.json"⟩ =
        AnalyzedFile.loadedAlone .ofMachine (outputMachine "x") ⟨"out/a/z.json"⟩ := by
  obtain ⟨places, -, isPlace, ordered, -, onwards⟩ := @AnalyzedFile.loadDirectory_complete
    .ofMachine _ (outputMachine "x") World.shows_ofMachine (proper_outputMachine "x") ⟨"out"⟩
  obtain ⟨loaded, sameEntry, -⟩ := onwards World.ofMachine.backwards (outputMachine "[]")
    World.shows_ofMachine.backwards (proper_outputMachine "[]") (sameShape_outputMachine "x" "[]")
  have inside : ∀ names ∈ [["a", "z.json"], ["a-b.json"], ["b.json"]], names ∈ places := by
    simp only [List.forall_mem_cons, List.not_mem_nil, false_imp_iff, implies_true, and_true,
      isPlace]
    exact ⟨⟨by decide, by decide, by decide⟩, ⟨by decide, by decide, by decide⟩,
      ⟨by decide, by decide, by decide⟩⟩
  have outside : ["a.txt"] ∉ places := fun member =>
    absurd ((isPlace _).mp member).isJson (by decide)
  exact ⟨places, inside, outside, ordered, loaded,
    sameEntry ["a", "z.json"] (inside _ List.mem_cons_self) rfl⟩

end SymbolIndex
