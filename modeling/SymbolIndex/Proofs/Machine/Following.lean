import SymbolIndex.Proofs.Fallible
import SymbolIndex.Proofs.FilePath.Places
import SymbolIndex.Proofs.Machine.Nodes

/-!
# Following paths

A path that can be followed leads to the place that its spelling tells, and every
place on its way is a directory.  So whether it can be followed, and what is
found at its end, depends only on the nodes at the places that it passes.
-/

namespace SymbolIndex

open FilePath (stepPlace)

namespace FileTree

def IsDirectory (tree : FileTree) (place : List String) : Prop :=
  ∃ entries, tree.top.find? place = some (.directory entries)

/-- The bytes of the file at a place, if there is a file. -/
def fileAt (tree : FileTree) (place : List String) : Option ByteArray :=
  match tree.top.find? place with
  | some (.file content) => some content
  | _ => none

/-- The place that the spelling of a path tells. -/
def placeOf (tree : FileTree) (path : FilePath) : List String :=
  path.placeFrom tree.workingDirectory

section Steps

variable {tree : FileTree} {place next : List String} {piece : String}

theorem isDirectory_of_append {rest : List String} (below : tree.IsDirectory (place ++ rest)) :
    tree.IsDirectory place := by
  obtain ⟨entries, found⟩ := below
  rw [FileNode.find?_append] at found
  cases at_ : tree.top.find? place with
  | none => simp [at_] at found
  | some node =>
      cases node with
      | directory others => exact ⟨others, at_⟩
      | file content =>
          cases rest with
          | nil => simp [at_] at found
          | cons name rest => simp [at_, FileNode.find?] at found

theorem isDirectory_of_above {above : List String} (isAbove : above <+: place)
    (directory : tree.IsDirectory place) : tree.IsDirectory above := by
  obtain ⟨rest, rfl⟩ := isAbove
  exact isDirectory_of_append directory

theorem IsDirectory.isSome (directory : tree.IsDirectory place) :
    (tree.top.find? place).isSome = true := by
  obtain ⟨entries, found⟩ := directory
  rw [found]
  rfl

/-- In a directory a step leads to the place that its piece tells, if there is
something and the piece is not too long. -/
theorem step_of_isDirectory (directory : tree.IsDirectory place) (piece : String) :
    tree.step place piece =
      if maxNameSize < piece.utf8ByteSize then .error .nameTooLong
      else if (tree.top.find? (stepPlace place piece)).isSome then .ok (stepPlace place piece)
      else .error .notFound := by
  have here := directory.isSome
  have above := (isDirectory_of_above (List.dropLast_prefix place) directory).isSome
  obtain ⟨entries, found⟩ := directory
  rw [step, found]
  by_cases idle : piece = "" ∨ piece = "."
  · have short : ¬ maxNameSize < piece.utf8ByteSize := by
      rcases idle with rfl | rfl <;> decide
    simp [idle, short, stepPlace, here]
  by_cases up : piece = ".."
  · subst up
    have short : ¬ maxNameSize < "..".utf8ByteSize := by decide
    simp [short, stepPlace, above]
  · have next : stepPlace place piece = place ++ [piece] := by
      simp [stepPlace, idle, up]
    have entry : tree.top.find? (place ++ [piece]) = entries.lookup piece := by
      rw [FileNode.find?_append, found, Option.bind_some, FileNode.find?_singleton]
    rw [next, entry]
    simp [idle, up]

theorem isDirectory_of_step (stepped : tree.step place piece = .ok next) :
    tree.IsDirectory place := by
  unfold step at stepped
  split at stepped
  case h_1 => cases stepped
  case h_2 => cases stepped
  case h_3 entries found => exact ⟨entries, found⟩

/-- A step leads from a directory to the place that its piece tells, where
something is. -/
theorem step_eq_ok :
    tree.step place piece = .ok next ↔
      tree.IsDirectory place ∧ piece.utf8ByteSize ≤ maxNameSize ∧
        next = stepPlace place piece ∧ (tree.top.find? next).isSome = true := by
  constructor
  · intro stepped
    have directory := isDirectory_of_step stepped
    rw [step_of_isDirectory directory] at stepped
    split at stepped
    · cases stepped
    rename_i short
    split at stepped
    · rename_i there
      cases stepped
      exact ⟨directory, Nat.le_of_not_lt short, rfl, there⟩
    · cases stepped
  · rintro ⟨directory, short, rfl, there⟩
    rw [step_of_isDirectory directory, if_neg (Nat.not_lt_of_le short), if_pos there]

end Steps

section Following

variable {tree old new : FileTree} {start place last : List String} {pieces : List String}

/-- Following pieces leads to the place that they tell. -/
theorem foldlM_step_eq_ok (followed : pieces.foldlM tree.step start = .ok last) :
    last = pieces.foldl stepPlace start := by
  induction pieces generalizing start with
  | nil =>
      cases followed
      rfl
  | cons piece pieces ih =>
      rw [List.foldlM_cons] at followed
      obtain ⟨next, stepped, followed⟩ := Fallible.bind_eq_ok.mp followed
      obtain ⟨-, -, rfl, -⟩ := step_eq_ok.mp stepped
      exact ih followed

/-- What is passed on the way is a directory. -/
theorem isDirectory_of_foldlM_step (followed : pieces.foldlM tree.step start = .ok last)
    {first : List String} (isFirst : first <+: pieces) (notAll : first ≠ pieces) :
    tree.IsDirectory (first.foldl stepPlace start) := by
  obtain ⟨others, rfl⟩ := isFirst
  rw [List.foldlM_append] at followed
  obtain ⟨middle, followed, onwards⟩ := Fallible.bind_eq_ok.mp followed
  obtain rfl := foldlM_step_eq_ok followed
  cases others with
  | nil => simp at notAll
  | cons piece others =>
      rw [List.foldlM_cons] at onwards
      obtain ⟨next, stepped, -⟩ := Fallible.bind_eq_ok.mp onwards
      exact isDirectory_of_step stepped

/-- Empty pieces lead nowhere else. -/
theorem foldlM_step_idle (directory : tree.IsDirectory place)
    (idle : ∀ piece ∈ pieces, piece = "") : pieces.foldlM tree.step place = .ok place := by
  induction pieces with
  | nil => rfl
  | cons piece pieces ih =>
      obtain rfl := idle piece (List.mem_cons_self ..)
      have stays : tree.step place "" = .ok place :=
        step_eq_ok.mpr ⟨directory, by decide, (FilePath.stepPlace_empty place).symm,
          directory.isSome⟩
      rw [List.foldlM_cons, stays]
      exact ih fun other member => idle other (List.mem_cons_of_mem _ member)

/-- Two trees look the same at a place to a path that passes it: they have the
same node there, or both have a directory. -/
def Alike (old new : FileTree) (place : List String) : Prop :=
  new.top.find? place = old.top.find? place ∨ (old.IsDirectory place ∧ new.IsDirectory place)

theorem Alike.isSome_eq (alike : Alike old new place) :
    (new.top.find? place).isSome = (old.top.find? place).isSome := by
  rcases alike with same | ⟨directory, stillDirectory⟩
  · rw [same]
  · rw [directory.isSome, stillDirectory.isSome]

theorem step_congr {piece : String} (here : Alike old new place)
    (next : Alike old new (stepPlace place piece)) :
    new.step place piece = old.step place piece := by
  rcases here with same | ⟨directory, stillDirectory⟩
  · unfold step
    rw [same]
  · rw [step_of_isDirectory directory, step_of_isDirectory stillDirectory, next.isSome_eq]

theorem foldlM_step_congr
    (alike : ∀ first, first <+: pieces → Alike old new (first.foldl stepPlace start)) :
    pieces.foldlM new.step start = pieces.foldlM old.step start := by
  induction pieces generalizing start with
  | nil => rfl
  | cons piece pieces ih =>
      have here : Alike old new start := alike [] List.nil_prefix
      have next : Alike old new (stepPlace start piece) :=
        alike [piece] (List.prefix_append [piece] pieces)
      rw [List.foldlM_cons, List.foldlM_cons, step_congr here next]
      cases stepped : old.step start piece with
      | error error => rfl
      | ok reached =>
          obtain ⟨-, -, rfl, -⟩ := step_eq_ok.mp stepped
          exact ih fun first isFirst =>
            alike (piece :: first) ((List.prefix_cons_inj piece).mpr isFirst)

/-- Pieces that can be followed can still be followed when no directory is gone
and something is at their end. -/
theorem foldlM_step_of_persists (followed : pieces.foldlM old.step start = .ok last)
    (persists : ∀ place, old.IsDirectory place → new.IsDirectory place)
    (there : (new.top.find? last).isSome = true) :
    pieces.foldlM new.step start = .ok last := by
  induction pieces generalizing start with
  | nil => exact followed
  | cons piece pieces ih =>
      rw [List.foldlM_cons] at followed ⊢
      obtain ⟨next, stepped, onwards⟩ := Fallible.bind_eq_ok.mp followed
      obtain ⟨directory, short, rfl, -⟩ := step_eq_ok.mp stepped
      have thereNext : (new.top.find? (stepPlace start piece)).isSome = true := by
        cases pieces with
        | nil =>
            cases onwards
            exact there
        | cons second others =>
            rw [List.foldlM_cons] at onwards
            obtain ⟨_, steppedOn, -⟩ := Fallible.bind_eq_ok.mp onwards
            exact (persists _ (isDirectory_of_step steppedOn)).isSome
      have steppedNew : new.step start piece = .ok (stepPlace start piece) :=
        step_eq_ok.mpr ⟨persists _ directory, short, rfl, thereNext⟩
      rw [steppedNew]
      exact ih onwards

end Following

section Paths

variable {tree old new : FileTree} {path : FilePath} {place : List String}

theorem start_eq_ok {origin pieces : List String} (started : tree.start path = .ok (origin, pieces)) :
    origin = path.origin tree.workingDirectory ∧ pieces = path.pieces := by
  unfold start at started
  split at started
  · cases started
  split at started
  · cases started
  split at started
  · cases started
  · cases started
    exact ⟨rfl, rfl⟩

theorem locate_eq_ok_iff :
    tree.locate path = .ok place ↔
      tree.start path = .ok (path.origin tree.workingDirectory, path.pieces) ∧
        path.pieces.foldlM tree.step (path.origin tree.workingDirectory) = .ok place := by
  constructor
  · intro located
    obtain ⟨⟨origin, pieces⟩, started, followed⟩ := Fallible.bind_eq_ok.mp located
    obtain ⟨rfl, rfl⟩ := start_eq_ok started
    exact ⟨started, followed⟩
  · rintro ⟨started, followed⟩
    rw [locate, started]
    exact followed

theorem eq_placeOf_of_locate (located : tree.locate path = .ok place) :
    place = tree.placeOf path :=
  foldlM_step_eq_ok (locate_eq_ok_iff.mp located).2

/-- A path below another one leads to a place below the other's. -/
theorem placeOf_child {text : String} (inside : (FilePath.mk text).StaysInside) :
    tree.placeOf (path.child text) = tree.placeOf path ++ (FilePath.mk text).cleanNames := by
  rw [placeOf, FilePath.child, FilePath.placeFrom_join path inside.1,
    FilePath.foldl_stepPlace_of_staysInside inside, placeOf]

theorem node_of_locate (located : tree.locate path = .ok place) :
    tree.node path =
      match tree.top.find? place with
      | some node => .ok node
      | none => .error .notFound := by
  rw [node, located]
  rfl

theorem node_of_locate_error {error : FileError} (failed : tree.locate path = .error error) :
    tree.node path = .error error := by
  rw [node, failed]
  rfl

/-- What a path leads to is at the place that its spelling tells. -/
theorem node_eq_ok {node : FileNode} :
    tree.node path = .ok node ↔ tree.locate path = .ok (tree.placeOf path) ∧
      tree.top.find? (tree.placeOf path) = some node := by
  constructor
  · intro found
    obtain ⟨place, located, there⟩ := Fallible.bind_eq_ok.mp found
    obtain rfl := eq_placeOf_of_locate located
    refine ⟨located, ?_⟩
    split at there
    · rename_i isThere
      cases there
      exact isThere
    · cases there
  · rintro ⟨located, there⟩
    rw [node_of_locate located, there]

section Node

variable {node : FileNode} {error : FileError}

theorem kind?_of_node (found : tree.node path = .ok node) :
    tree.kind? path = some node.kind := by
  rw [kind?, found]
  rfl

theorem kind?_of_node_error (failed : tree.node path = .error error) :
    tree.kind? path = none := by
  rw [kind?, failed]
  rfl

theorem walk_of_node (found : tree.node path = .ok node) :
    tree.walk path = .ok (node.walk path) := by
  rw [walk, found]
  rfl

theorem walk_of_node_error (failed : tree.node path = .error error) :
    tree.walk path = .error error := by
  rw [walk, failed]
  rfl

end Node

/-- What is read at a path can be told from the file in its place. -/
theorem read_eq (tree : FileTree) (path : FilePath) : tree.read path =
    (tree.locate path).bind fun place =>
      match tree.fileAt place with
      | some content => .ok content
      | none =>
        if (tree.top.find? place).isSome then .error .isDirectory else .error .notFound := by
  cases located : tree.locate path with
  | error error =>
      rw [FileTree.read, node_of_locate_error located]
      rfl
  | ok place =>
      rw [FileTree.read, node_of_locate located, Except.bind, fileAt]
      cases tree.top.find? place with
      | none => rfl
      | some node => cases node <;> rfl

/-- What is read at a path is the file at the place that the path leads to. -/
theorem read_eq_ok {content : ByteArray} :
    tree.read path = .ok content ↔
      tree.locate path = .ok (tree.placeOf path) ∧
        tree.fileAt (tree.placeOf path) = some content := by
  rw [read_eq]
  constructor
  · intro read
    obtain ⟨place, located, read⟩ := Fallible.bind_eq_ok.mp read
    obtain rfl := eq_placeOf_of_locate located
    refine ⟨located, ?_⟩
    split at read
    · rename_i there
      cases read
      exact there
    · split at read <;> cases read
  · rintro ⟨located, file⟩
    rw [located, Except.bind, file]

theorem start_congr (sameStart : new.workingDirectory = old.workingDirectory) :
    new.start path = old.start path := by
  rw [start, start, sameStart]

theorem placeOf_congr (sameStart : new.workingDirectory = old.workingDirectory)
    (path : FilePath) : new.placeOf path = old.placeOf path := by
  rw [placeOf, placeOf, sameStart]

/-- A file can still be read when no directory is gone and the file is the same. -/
theorem read_of_persists {content : ByteArray} (read : old.read path = .ok content)
    (sameStart : new.workingDirectory = old.workingDirectory)
    (persists : ∀ place, old.IsDirectory place → new.IsDirectory place)
    (sameFile : new.fileAt (old.placeOf path) = old.fileAt (old.placeOf path)) :
    new.read path = .ok content := by
  obtain ⟨located, file⟩ := read_eq_ok.mp read
  rw [file] at sameFile
  obtain ⟨started, followed⟩ := locate_eq_ok_iff.mp located
  have there : (new.top.find? (old.placeOf path)).isSome = true := by
    unfold fileAt at sameFile
    split at sameFile
    · rename_i found
      simp [found]
    · cases sameFile
  rw [read_eq_ok, locate_eq_ok_iff, placeOf_congr sameStart, start_congr sameStart, sameStart]
  exact ⟨⟨started, foldlM_step_of_persists followed persists there⟩, sameFile⟩

/-- Whether a path leads to a directory. -/
def Enters (tree : FileTree) (path : FilePath) : Prop :=
  path.pieces.foldlM tree.step (path.origin tree.workingDirectory) = .ok (tree.placeOf path) ∧
    tree.IsDirectory (tree.placeOf path)

/-- A path that leads to a directory passes only directories. -/
theorem Enters.isDirectory_of_passes (enters : tree.Enters path) {passed : List String}
    (passes : path.Passes tree.workingDirectory passed) : tree.IsDirectory passed := by
  obtain ⟨first, isFirst, rfl⟩ := passes
  obtain ⟨followed, directory⟩ := enters
  by_cases all : first = path.pieces
  · rw [all]
    exact directory
  · exact isDirectory_of_foldlM_step followed isFirst all

theorem Enters.mono (enters : old.Enters path)
    (sameStart : new.workingDirectory = old.workingDirectory)
    (persists : ∀ place, old.IsDirectory place → new.IsDirectory place) : new.Enters path := by
  have stillDirectory := persists _ enters.2
  rw [Enters, placeOf_congr sameStart, sameStart]
  exact ⟨foldlM_step_of_persists enters.1 persists stillDirectory.isSome, stillDirectory⟩

/-- What is listed at a path are the entries of the directory at its place. -/
theorem list_eq_ok {listed : List (String × EntryKind)} (found : tree.list path = .ok listed) :
    ∃ entries, tree.top.find? (tree.placeOf path) = some (.directory entries) ∧
      listed = entries.map fun (name, node) => (name, node.kind) := by
  obtain ⟨node, reached, found⟩ := Fallible.bind_eq_ok.mp found
  obtain ⟨place, located, there⟩ := Fallible.bind_eq_ok.mp reached
  obtain rfl := eq_placeOf_of_locate located
  cases node with
  | file content => cases found
  | directory entries =>
      cases found
      split at there
      · rename_i at_
        cases there
        exact ⟨entries, at_, rfl⟩
      · cases there

/-- Whether a path leads to something can be told by following its pieces. -/
theorem followed_of_kind? (there : (tree.kind? path).isSome = true) :
    path.pieces.foldlM tree.step (path.origin tree.workingDirectory) =
      .ok (tree.placeOf path) := by
  cases located : tree.locate path with
  | error error =>
      rw [kind?, node_of_locate_error located] at there
      cases there
  | ok place =>
      obtain rfl := eq_placeOf_of_locate located
      exact (locate_eq_ok_iff.mp located).2

/-- If a path that goes on from another one can be followed, the other one leads to
a directory. -/
theorem enters_of_child {text : String} (relative : (FilePath.mk text).isAbsolute = false)
    (followed : (path.child text).pieces.foldlM tree.step
      ((path.child text).origin tree.workingDirectory) = .ok place) : tree.Enters path := by
  obtain ⟨before, idle, pieces, idleEmpty, joined⟩ := FilePath.pieces_join path relative
  rw [FilePath.child, joined, List.foldlM_append, FilePath.origin,
    FilePath.isAbsolute_join path relative] at followed
  obtain ⟨middle, followedBefore, onwards⟩ := Fallible.bind_eq_ok.mp followed
  have directory : tree.IsDirectory middle :=
    isDirectory_of_foldlM_step onwards List.nil_prefix (FilePath.pieces_ne_nil _).symm
  have reached : middle = tree.placeOf path := by
    rw [foldlM_step_eq_ok followedBefore, placeOf, FilePath.placeFrom, pieces, List.foldl_append,
      FilePath.foldl_stepPlace_idle idleEmpty, FilePath.origin]
  rw [Enters, ← reached]
  refine ⟨?_, directory⟩
  rw [pieces, List.foldlM_append]
  exact Fallible.bind_eq_ok.mpr ⟨middle, followedBefore, foldlM_step_idle directory idleEmpty⟩

/-- A path is followed in the same way in two trees that look the same to it. -/
theorem locate_congr (sameStart : new.workingDirectory = old.workingDirectory)
    (alike : ∀ passed, path.Passes old.workingDirectory passed → Alike old new passed) :
    new.locate path = old.locate path := by
  unfold locate
  rw [start_congr sameStart]
  cases started : old.start path with
  | error error => rfl
  | ok from_ =>
      obtain ⟨origin, pieces⟩ := from_
      obtain ⟨rfl, rfl⟩ := start_eq_ok started
      exact foldlM_step_congr fun first isFirst => alike _ ⟨first, isFirst, rfl⟩

theorem splitTarget_eq_some {pieces before : List String} {last : String}
    (split : splitTarget pieces = (before, some last)) :
    last ≠ "" ∧ ∃ idle, pieces = before ++ last :: idle ∧ ∀ piece ∈ idle, piece = "" := by
  unfold splitTarget at split
  split at split
  · cases split
  · rename_i found reversed dropped
    cases split
    have notEmpty := List.head?_dropWhile_not (· = "") pieces.reverse
    rw [dropped] at notEmpty
    refine ⟨by simpa using notEmpty, ?_⟩
    obtain ⟨idle, parts, allIdle⟩ : ∃ idle, pieces.reverse = idle ++ last :: reversed ∧
        ∀ piece ∈ idle, piece = "" := by
      rw [← dropped]
      refine ⟨_, List.takeWhile_append_dropWhile.symm, fun piece member => ?_⟩
      simpa using List.all_eq_true.mp List.all_takeWhile piece member
    refine ⟨idle.reverse, ?_, fun piece member => allIdle piece (List.mem_reverse.mp member)⟩
    rw [← List.reverse_reverse pieces, parts]
    simp

/-- A path names an entry if the pieces before its last one lead to a directory
and the last one can be a name. -/
theorem target_eq_ok_iff {name : String} :
    tree.target path = .ok (some (place, name)) ↔
      ∃ before,
        tree.start path = .ok (path.origin tree.workingDirectory, path.pieces) ∧
        splitTarget path.pieces = (before, some name) ∧
        before.foldlM tree.step (path.origin tree.workingDirectory) = .ok place ∧
        tree.IsDirectory place ∧ name ≠ "." ∧ name ≠ ".." ∧
        name.utf8ByteSize ≤ maxNameSize := by
  constructor
  · intro found
    obtain ⟨⟨origin, pieces⟩, started, found⟩ := Fallible.bind_eq_ok.mp found
    obtain ⟨rfl, rfl⟩ := start_eq_ok started
    dsimp only at found
    split at found
    · cases found
    rename_i before last parts
    obtain ⟨reached, followed, found⟩ := Fallible.bind_eq_ok.mp found
    split at found
    case h_2 => cases found
    case h_1 entries isDirectory =>
      split at found
      · cases found
      rename_i notDots
      split at found
      · cases found
      rename_i short
      cases found
      simp only [Bool.or_eq_true, decide_eq_true_eq, not_or] at notDots
      exact ⟨before, started, parts, followed, ⟨entries, isDirectory⟩, notDots.1, notDots.2,
        Nat.le_of_not_lt short⟩
  · rintro ⟨before, started, parts, followed, ⟨entries, found⟩, notHere, notUp, short⟩
    simp [target, started, parts, followed, found, notHere, notUp, Nat.not_lt_of_le short, bind,
      Except.bind]

/-- A path names an entry of a directory at the place that its spelling tells. -/
theorem target_eq_ok {name : String} (found : tree.target path = .ok (some (place, name))) :
    tree.placeOf path = place ++ [name] ∧ tree.IsDirectory place ∧ FilePath.IsName name ∧
      name ∈ path.pieces := by
  obtain ⟨before, -, parts, followed, directory, notHere, notUp, -⟩ := target_eq_ok_iff.mp found
  obtain ⟨notEmpty, idle, pieces, allIdle⟩ := splitTarget_eq_some parts
  have member : name ∈ path.pieces := by
    rw [pieces]
    simp
  have placeOf : tree.placeOf path = place ++ [name] := by
    rw [FileTree.placeOf, FilePath.placeFrom, pieces, List.foldl_append, List.foldl_cons,
      FilePath.foldl_stepPlace_idle allIdle, ← foldlM_step_eq_ok followed]
    simp [stepPlace, notEmpty, notHere, notUp]
  exact ⟨placeOf, directory,
    ⟨notEmpty, notHere, notUp, FilePath.slash_not_mem_of_mem_pieces member⟩, member⟩

/-- The entry that a path names stays the same when no directory is gone. -/
theorem target_of_persists {name : String} (found : old.target path = .ok (some (place, name)))
    (sameStart : new.workingDirectory = old.workingDirectory)
    (persists : ∀ place, old.IsDirectory place → new.IsDirectory place) :
    new.target path = .ok (some (place, name)) := by
  obtain ⟨before, started, parts, followed, directory, named⟩ := target_eq_ok_iff.mp found
  have stillDirectory := persists place directory
  rw [target_eq_ok_iff, start_congr sameStart, sameStart]
  exact ⟨before, started, parts,
    foldlM_step_of_persists followed persists stillDirectory.isSome, stillDirectory, named⟩

/-- A path that names an entry leads to it if something is there and the path does
not end with a slash. -/
theorem locate_of_target {name : String} (found : tree.target path = .ok (some (place, name)))
    (noSlash : path.endsWithSlash = false)
    (there : (tree.top.find? (place ++ [name])).isSome = true) :
    tree.locate path = .ok (place ++ [name]) := by
  obtain ⟨before, started, parts, followed, directory, notHere, notUp, short⟩ :=
    target_eq_ok_iff.mp found
  obtain ⟨notEmpty, idle, pieces, allIdle⟩ := splitTarget_eq_some parts
  obtain rfl : idle = [] := by
    rcases List.eq_nil_or_concat idle with rfl | ⟨init, last, rfl⟩
    · rfl
    · obtain rfl := allIdle last (by simp)
      have ended : path.pieces = (before ++ name :: init) ++ [""] := by simp [pieces]
      have slash := FilePath.endsWithSlash_of_pieces (by simp) ended
      simp [noSlash] at slash
  have stepped : tree.step place name = .ok (place ++ [name]) :=
    step_eq_ok.mpr ⟨directory, short, by simp [stepPlace, notEmpty, notHere, notUp], there⟩
  rw [locate_eq_ok_iff]
  refine ⟨started, ?_⟩
  rw [pieces, List.foldlM_append]
  refine Fallible.bind_eq_ok.mpr ⟨place, followed, ?_⟩
  rw [List.foldlM_cons, stepped]
  rfl

end Paths

end FileTree

end SymbolIndex
