import SymbolIndex.Proofs.Machine.Following
import Mathlib.Logic.Function.Basic
import Mathlib.Logic.Relation

/-!
# Changes to a tree of files

What a new node at a place does to the files of a tree, to its directories and
to everything that lies elsewhere, and what making directories does, which are
several such changes one after the other.
-/

namespace SymbolIndex

namespace FileTree

section Putting

variable {tree : FileTree} {place other : List String} {name : String} {value : FileNode}

theorem find?_putAt_below (directory : tree.IsDirectory place) (name : String)
    (value : FileNode) (rest : List String) :
    (tree.putAt (place ++ [name]) value).top.find? (place ++ [name] ++ rest) =
      value.find? rest := by
  obtain ⟨entries, found⟩ := directory
  have changed := FileNode.find?_changeEntries_append (setEntry name value) tree.top place []
  rw [List.append_nil, found] at changed
  rw [putAt, FileNode.put_append, List.append_assoc, FileNode.find?_append, changed]
  simp [FileNode.changeEntries, FileNode.find?, lookup_setEntry]

theorem find?_putAt_self (directory : tree.IsDirectory place) (name : String)
    (value : FileNode) :
    (tree.putAt (place ++ [name]) value).top.find? (place ++ [name]) = some value := by
  have found := find?_putAt_below directory name value []
  rwa [List.append_nil, FileNode.find?_nil] at found

theorem find?_putAt_of_apart (notAbove : ¬ other <+: place ++ [name])
    (notBelow : ¬ place ++ [name] <+: other) :
    (tree.putAt (place ++ [name]) value).top.find? other = tree.top.find? other := by
  rw [putAt, FileNode.put_append]
  by_cases inside : place <+: other
  · obtain ⟨rest, rfl⟩ := inside
    have changed := FileNode.find?_changeEntries_append (setEntry name value) tree.top place []
    rw [List.append_nil] at changed
    rw [FileNode.find?_append, changed, FileNode.find?_append]
    cases rest with
    | nil => simp at notAbove
    | cons first rest =>
        have different : first ≠ name := by
          rintro rfl
          simp at notBelow
        cases tree.top.find? place with
        | none => rfl
        | some node =>
            cases node with
            | file content => rfl
            | directory entries =>
                simp [FileNode.changeEntries, FileNode.find?, lookup_setEntry, different]
  · have notAbovePlace : ¬ other <+: place := fun above =>
      notAbove (above.trans (List.prefix_append ..))
    exact FileNode.find?_changeEntries_of_apart _ notAbovePlace inside

/-- A directory stays one if nothing is put in its place or above it. -/
theorem isDirectory_putAt (directory : tree.IsDirectory other)
    (notBelow : ¬ place ++ [name] <+: other) :
    (tree.putAt (place ++ [name]) value).IsDirectory other := by
  by_cases above : other <+: place ++ [name]
  · have abovePlace : other <+: place := by
      rcases List.prefix_concat_iff.mp above with rfl | above
      · simp at notBelow
      · exact above
    obtain ⟨rest, rfl⟩ := abovePlace
    obtain ⟨entries, found⟩ := directory
    rw [IsDirectory, putAt, FileNode.put_append, FileNode.find?_changeEntries_append, found]
    cases rest with
    | nil => exact ⟨_, rfl⟩
    | cons first rest =>
        rw [Option.map_some, FileNode.changeEntries]
        split
        · exact ⟨_, rfl⟩
        · exact ⟨_, rfl⟩
  · rw [IsDirectory, find?_putAt_of_apart above notBelow]
    exact directory

theorem not_isDirectory_of_find?_eq_none (nothing : tree.top.find? place = none) :
    ¬ tree.IsDirectory place := by
  rintro ⟨entries, found⟩
  simp [nothing] at found

theorem find?_eq_none_of_not_isDirectory (noDirectory : ¬ tree.IsDirectory place)
    (first : String) (rest : List String) : tree.top.find? (place ++ first :: rest) = none := by
  rw [FileNode.find?_append]
  cases found : tree.top.find? place with
  | none => rfl
  | some node =>
      cases node with
      | file content => rfl
      | directory entries => exact absurd ⟨entries, found⟩ noDirectory

theorem fileAt_eq_none_of_isDirectory (directory : tree.IsDirectory place) :
    tree.fileAt place = none := by
  obtain ⟨entries, found⟩ := directory
  simp [fileAt, found]

/-- Above a directory there are only directories, so a new node in it changes no
file there. -/
theorem fileAt_putAt_of_above (directory : tree.IsDirectory place) (above : other <+: place) :
    (tree.putAt (place ++ [name]) value).fileAt other = tree.fileAt other := by
  have otherDirectory := isDirectory_of_above above directory
  have notBelow : ¬ place ++ [name] <+: other := by
    intro below
    have length := (below.trans above).length_le
    simp at length
  rw [fileAt_eq_none_of_isDirectory otherDirectory,
    fileAt_eq_none_of_isDirectory (isDirectory_putAt otherDirectory notBelow)]

/-- A new file is the only file that changes. -/
theorem fileAt_putAt_file (directory : tree.IsDirectory place)
    (noDirectory : ¬ tree.IsDirectory (place ++ [name])) (content : ByteArray) :
    (tree.putAt (place ++ [name]) (.file content)).fileAt =
      Function.update tree.fileAt (place ++ [name]) (some content) := by
  funext other
  by_cases below : place ++ [name] <+: other
  · obtain ⟨rest, rfl⟩ := below
    have found := find?_putAt_below directory name (.file content) rest
    cases rest with
    | nil => simp_all [fileAt, FileNode.find?]
    | cons first rest =>
        have nothing := find?_eq_none_of_not_isDirectory noDirectory first rest
        have elsewhere : place ++ [name] ++ first :: rest ≠ place ++ [name] := by simp
        rw [Function.update_of_ne elsewhere, fileAt, fileAt, found, nothing]
        rfl
  · by_cases above : other <+: place ++ [name]
    · rcases List.prefix_concat_iff.mp above with rfl | abovePlace
      · simp at below
      · rw [fileAt_putAt_of_above directory abovePlace, Function.update_of_ne]
        rintro rfl
        simp at below
    · rw [Function.update_of_ne (by rintro rfl; simp at below), fileAt,
        find?_putAt_of_apart above below, fileAt]

/-- A new directory without entries changes no file. -/
theorem fileAt_putAt_directory (directory : tree.IsDirectory place)
    (nothing : tree.top.find? (place ++ [name]) = none) :
    (tree.putAt (place ++ [name]) (.directory [])).fileAt = tree.fileAt := by
  funext other
  by_cases below : place ++ [name] <+: other
  · obtain ⟨rest, rfl⟩ := below
    have found := find?_putAt_below directory name (.directory []) rest
    have before : tree.top.find? (place ++ [name] ++ rest) = none := by
      rw [FileNode.find?_append, nothing]
      rfl
    rw [fileAt, fileAt, found, before]
    cases rest with
    | nil => rfl
    | cons first rest => simp [FileNode.find?]
  · by_cases above : other <+: place ++ [name]
    · rcases List.prefix_concat_iff.mp above with rfl | abovePlace
      · simp at below
      · exact fileAt_putAt_of_above directory abovePlace
    · rw [fileAt, find?_putAt_of_apart above below, fileAt]

end Putting

/-- One tree comes from another by changes below a place: everything that does
not lie on the way to that place or below it is the same, and no directory is
gone. -/
structure SameOutside (below : List String) (old new : FileTree) : Prop where
  workingDirectory : new.workingDirectory = old.workingDirectory
  node : ∀ place, ¬ place <+: below → ¬ below <+: place →
    new.top.find? place = old.top.find? place
  directory : ∀ place, old.IsDirectory place → new.IsDirectory place

section SameOutside

variable {below place : List String} {name : String} {tree first second third : FileTree}

theorem SameOutside.refl (below : List String) (tree : FileTree) :
    SameOutside below tree tree :=
  ⟨rfl, fun _ _ _ => rfl, fun _ directory => directory⟩

theorem SameOutside.trans (start : SameOutside below first second)
    (next : SameOutside below second third) : SameOutside below first third where
  workingDirectory := next.workingDirectory.trans start.workingDirectory
  node place notAbove notBelow :=
    (next.node place notAbove notBelow).trans (start.node place notAbove notBelow)
  directory place directory := next.directory place (start.directory place directory)

theorem sameOutside_putAt (inside : below <+: place ++ [name])
    (noDirectory : ¬ tree.IsDirectory (place ++ [name])) (value : FileNode) :
    SameOutside below tree (tree.putAt (place ++ [name]) value) where
  workingDirectory := rfl
  node other notAbove notBelow := by
    apply find?_putAt_of_apart
    · intro above
      rcases List.prefix_or_prefix_of_prefix above inside with isAbove | isBelow
      · exact notAbove isAbove
      · exact notBelow isBelow
    · exact fun isBelow => notBelow (inside.trans isBelow)
  directory other directory :=
    isDirectory_putAt directory fun isBelow =>
      noDirectory (isDirectory_of_above isBelow directory)

end SameOutside

section Directories

variable {tree old new : FileTree} {path : FilePath} {allowed : List String → Prop}

theorem makeDirectory_eq_ok (made : tree.makeDirectory path = .ok new) :
    ∃ place name, tree.placeOf path = place ++ [name] ∧ tree.IsDirectory place ∧
      FilePath.IsName name ∧ name ∈ path.pieces ∧ tree.top.find? (place ++ [name]) = none ∧
      new = tree.putAt (place ++ [name]) (.directory []) := by
  obtain ⟨named, target, made⟩ := Fallible.bind_eq_ok.mp made
  cases named with
  | none => cases made
  | some entry =>
      obtain ⟨place, name⟩ := entry
      obtain ⟨placeOf, directory, isName, piece⟩ := target_eq_ok target
      dsimp only at made
      split at made
      · cases made
      · rename_i nothing
        cases made
        exact ⟨place, name, placeOf, directory, isName, piece, nothing, rfl⟩

/-- One tree comes from another by a new directory at an allowed place. -/
def AddsDirectory (allowed : List String → Prop) (old new : FileTree) : Prop :=
  ∃ place name, allowed (place ++ [name]) ∧ old.IsDirectory place ∧
    old.top.find? (place ++ [name]) = none ∧
    new = old.putAt (place ++ [name]) (.directory [])

theorem AddsDirectory.mono {others : List String → Prop}
    (more : ∀ place, allowed place → others place) (adds : AddsDirectory allowed old new) :
    AddsDirectory others old new := by
  obtain ⟨place, name, isAllowed, rest⟩ := adds
  exact ⟨place, name, more _ isAllowed, rest⟩

/-- One tree comes from another by new directories at allowed places. -/
def AddsDirectories (allowed : List String → Prop) (old new : FileTree) : Prop :=
  Relation.ReflTransGen (AddsDirectory allowed) old new

namespace AddsDirectories

theorem workingDirectory_eq (adds : AddsDirectories allowed old new) :
    new.workingDirectory = old.workingDirectory := by
  induction adds with
  | refl => rfl
  | tail _ step ih =>
      obtain ⟨place, name, -, -, -, rfl⟩ := step
      exact ih

theorem fileAt_eq (adds : AddsDirectories allowed old new) : new.fileAt = old.fileAt := by
  induction adds with
  | refl => rfl
  | tail _ step ih =>
      obtain ⟨place, name, -, directory, nothing, rfl⟩ := step
      rw [fileAt_putAt_directory directory nothing, ih]

theorem isDirectory (adds : AddsDirectories allowed old new) {place : List String}
    (directory : old.IsDirectory place) : new.IsDirectory place := by
  induction adds with
  | refl => exact directory
  | tail _ step ih =>
      obtain ⟨above, name, -, -, nothing, rfl⟩ := step
      exact isDirectory_putAt ih fun below =>
        not_isDirectory_of_find?_eq_none nothing (isDirectory_of_above below ih)

/-- Directories that are added where there are none change nothing outside of a
place if all missing ones belong below it. -/
theorem sameOutside {below : List String} (adds : AddsDirectories allowed old new)
    (inside : ∀ place, allowed place → old.IsDirectory place ∨ below <+: place) :
    SameOutside below old new := by
  induction adds with
  | refl => exact .refl below old
  | tail adds step ih =>
      obtain ⟨place, name, isAllowed, directory, nothing, rfl⟩ := step
      have noDirectory := not_isDirectory_of_find?_eq_none nothing
      rcases inside _ isAllowed with there | isInside
      · exact absurd (AddsDirectories.isDirectory adds there) noDirectory
      · exact ih.trans (sameOutside_putAt isInside noDirectory _)

end AddsDirectories

/-- Whether a place is named by one of some paths that are not empty and not only
a dot. -/
def Named (tree : FileTree) (paths : List FilePath) (place : List String) : Prop :=
  ∃ path ∈ paths, path.text ≠ "" ∧ path.text ≠ "." ∧ tree.placeOf path = place

theorem addsDirectory_of_makeDirectory {paths : List FilePath} (member : path ∈ paths)
    (spelled : path.text ≠ "") (made : old.makeDirectory path = .ok new) :
    AddsDirectory (old.Named paths) old new := by
  obtain ⟨place, name, placeOf, directory, isName, piece, nothing, rfl⟩ :=
    makeDirectory_eq_ok made
  have notDot : path.text ≠ "." := by
    intro dot
    have pieces : path.pieces = ["."] := by
      obtain rfl : path = ⟨"."⟩ := by
        cases path
        simp_all
      decide
    rw [pieces, List.mem_singleton] at piece
    exact isName.2.1 piece
  exact ⟨place, name, ⟨path, member, spelled, notDot, placeOf⟩, directory, nothing, rfl⟩

/-- Making a path a directory adds directories at the places of the path and of
the paths above it. -/
theorem addsDirectories_makeDirectoriesAlong (paths : List FilePath) (tree : FileTree) :
    AddsDirectories (tree.Named paths) tree (makeDirectoriesAlong paths tree).2 := by
  induction paths with
  | nil => exact .refl
  | cons path above ih =>
      rw [makeDirectoriesAlong]
      split
      · exact .refl
      rename_i spelled
      split
      case h_1 new made =>
        exact .single (addsDirectory_of_makeDirectory (List.mem_cons_self ..) spelled made)
      case h_2 missing =>
        have others : AddsDirectories (tree.Named (path :: above)) tree
            (makeDirectoriesAlong above tree).2 := by
          refine Relation.ReflTransGen.mono (fun _ _ => AddsDirectory.mono ?_) _ _ ih
          rintro place ⟨other, member, rest⟩
          exact ⟨other, List.mem_cons_of_mem path member, rest⟩
        have sameStart := AddsDirectories.workingDirectory_eq others
        split
        case h_1 middle made =>
          rw [made] at others sameStart
          split
          case h_1 new madeNow =>
            have last := addsDirectory_of_makeDirectory (List.mem_cons_self (l := above)) spelled
              madeNow
            refine others.tail (last.mono ?_)
            rintro place ⟨other, member, otherSpelled, notDot, placeOf⟩
            refine ⟨other, member, otherSpelled, notDot, ?_⟩
            rw [← placeOf, FileTree.placeOf, FileTree.placeOf, sameStart]
          case h_2 =>
            dsimp only
            split <;> exact others
        case h_2 => exact others
      case h_3 =>
        dsimp only
        split <;> exact .refl

theorem addsDirectories_makeDirectories (path : FilePath) (tree : FileTree) :
    AddsDirectories (tree.Named path.ancestors) tree (tree.makeDirectories path).2 :=
  addsDirectories_makeDirectoriesAlong path.ancestors tree

end Directories

end FileTree

end SymbolIndex
