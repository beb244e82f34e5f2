import SymbolIndex.Machine.Basic
import SymbolIndex.Machine.Replace
import SymbolIndex.Proofs.Machine.Changes
import SymbolIndex.Proofs.Machine.Runs
import Mathlib.Data.List.Nodup
import Mathlib.Data.List.Perm.Subperm

/-!
# What replacing a file comes to

Replacing a file by way of a temporary one makes the directories above the file
and then either writes the file, just as if it were written in its place, or
does nothing else.  Of the temporary file nothing is left in either case.
-/

namespace SymbolIndex

namespace FileTree

section Writing

variable {tree old new : FileTree} {path : FilePath} {content : ByteArray}

theorem write_eq_ok :
    tree.write path content = .ok new ↔
      ∃ place name, tree.target path = .ok (some (place, name)) ∧
        ¬ tree.IsDirectory (place ++ [name]) ∧ path.endsWithSlash = false ∧
        new = tree.putAt (place ++ [name]) (.file content) := by
  constructor
  · intro written
    obtain ⟨named, target, written⟩ := Fallible.bind_eq_ok.mp written
    cases named with
    | none => cases written
    | some entry =>
        obtain ⟨place, name⟩ := entry
        dsimp only at written
        split at written
        · cases written
        rename_i noDirectory
        split at written
        · cases written
        rename_i noSlash
        cases written
        refine ⟨place, name, target, ?_, by simpa using noSlash, rfl⟩
        rintro ⟨entries, found⟩
        exact noDirectory entries found
  · rintro ⟨place, name, target, noDirectory, noSlash, rfl⟩
    rw [write, target]
    cases found : tree.top.find? (place ++ [name]) with
    | none => simp [bind, Except.bind, found, noSlash]
    | some node =>
        cases node with
        | file old => simp [bind, Except.bind, found, noSlash]
        | directory entries => exact absurd ⟨entries, found⟩ noDirectory

/-- A directory stays one when a file is put where no directory is. -/
theorem isDirectory_putAt_file {place other : List String} {name : String}
    (noDirectory : ¬ tree.IsDirectory (place ++ [name])) (there : tree.IsDirectory other) :
    (tree.putAt (place ++ [name]) (.file content)).IsDirectory other :=
  isDirectory_putAt there fun below => noDirectory (isDirectory_of_above below there)

/-- Putting a file somewhere makes no directory. -/
theorem isDirectory_of_putAt_file {place other : List String} {name : String}
    (directory : tree.IsDirectory place)
    (there : (tree.putAt (place ++ [name]) (.file content)).IsDirectory other) :
    tree.IsDirectory other := by
  by_cases below : place ++ [name] <+: other
  · obtain ⟨rest, rfl⟩ := below
    obtain ⟨entries, found⟩ := there
    rw [find?_putAt_below directory] at found
    cases rest <;> cases found
  · by_cases above : other <+: place ++ [name]
    · rcases List.prefix_concat_iff.mp above with rfl | abovePlace
      · simp at below
      · exact isDirectory_of_above abovePlace directory
    · rwa [IsDirectory, find?_putAt_of_apart above below] at there

/-- A written file holds what was written. -/
theorem read_write (written : tree.write path content = .ok new) : new.read path = .ok content := by
  obtain ⟨place, name, target, noDirectory, noSlash, rfl⟩ := write_eq_ok.mp written
  obtain ⟨placeOf, directory, -⟩ := target_eq_ok target
  have file : (tree.putAt (place ++ [name]) (.file content)).fileAt (place ++ [name]) =
      some content := by
    simp [fileAt_putAt_file directory noDirectory]
  have found := find?_putAt_self directory name (.file content)
  have targetNew : (tree.putAt (place ++ [name]) (.file content)).target path =
      .ok (some (place, name)) :=
    target_of_persists target rfl fun _ => isDirectory_putAt_file noDirectory
  have placeOfNew : (tree.putAt (place ++ [name]) (.file content)).placeOf path =
      place ++ [name] :=
    placeOf
  rw [read_eq_ok, placeOfNew]
  exact ⟨locate_of_target targetNew noSlash (by simp [found]), file⟩

end Writing

section Temporary

variable {tree new : FileTree} {dir temporary path : FilePath} {place : List String}
  {name : String} {entries : List (String × FileNode)}

theorem temporaryName_injective {first second : Nat}
    (same : s!".tmp{first}" = s!".tmp{second}") : first = second := by
  have digits : Nat.toDigits 10 first = Nat.toDigits 10 second := by
    have chars := congrArg String.toList same
    simpa [toString, Nat.toList_repr] using chars
  rw [← @Nat.ofDigitChars_ten_toDigits first, digits, Nat.ofDigitChars_ten_toDigits]

theorem exists_freshName_eq (entries : List (String × FileNode)) (fuel number : Nat) :
    ∃ later, number ≤ later ∧ freshName entries fuel number = s!".tmp{later}" := by
  induction fuel generalizing number with
  | zero => exact ⟨number, Nat.le_refl _, rfl⟩
  | succ fuel ih =>
      rw [freshName]
      split
      · obtain ⟨later, notBefore, name⟩ := ih (number + 1)
        exact ⟨later, by omega, name⟩
      · exact ⟨number, Nat.le_refl _, rfl⟩

theorem isName_temporary (number : Nat) :
    FilePath.IsName s!".tmp{number}" := by
  have chars : s!".tmp{number}".toList = '.' :: 't' :: 'm' :: 'p' :: Nat.toDigits 10 number := by
    simp [toString, Nat.toList_repr]
  have noSlash : '/' ∉ Nat.toDigits 10 number := by
    intro member
    have digit := Nat.isDigit_of_mem_toDigits (by decide) (by decide) member
    exact absurd digit (by decide)
  refine ⟨?_, ?_, ?_, by rw [chars]; simp [noSlash]⟩
  all_goals
    rw [ne_eq, ← String.toList_inj, chars]
    simp

/-- If the name that is found is taken, so are all names before it. -/
theorem taken_of_freshName {fuel number : Nat}
    (taken : (entries.lookup (freshName entries fuel number)).isSome = true) :
    ∀ step ≤ fuel, (entries.lookup s!".tmp{number + step}").isSome = true := by
  induction fuel generalizing number with
  | zero =>
      intro step isLe
      obtain rfl : step = 0 := by omega
      exact taken
  | succ fuel ih =>
      intro step isLe
      rw [freshName] at taken
      split at taken
      · rename_i first
        cases step with
        | zero => exact first
        | succ step =>
            have later := ih taken step (by omega)
            rwa [Nat.add_assoc, Nat.add_comm 1] at later
      · rename_i free
        exact absurd taken free

/-- There are more names to try than entries, so one of them is free. -/
theorem lookup_freshName (entries : List (String × FileNode)) :
    entries.lookup (freshName entries entries.length 0) = none := by
  by_contra notFree
  have taken := taken_of_freshName (Option.isSome_iff_ne_none.mpr notFree)
  let tried := (List.range (entries.length + 1)).map fun step => s!".tmp{0 + step}"
  have distinct : tried.Nodup := by
    refine List.Nodup.map (fun first second same => ?_) List.nodup_range
    have numbers := temporaryName_injective same
    omega
  have present : tried ⊆ entries.map Prod.fst := by
    intro name member
    obtain ⟨step, isTried, rfl⟩ := List.mem_map.mp member
    have found := taken step (Nat.le_of_lt_succ (List.mem_range.mp isTried))
    obtain ⟨entry, isEntry, same⟩ := List.lookup_isSome_iff.mp found
    exact List.mem_map.mpr ⟨entry, isEntry, (eq_of_beq same).symm⟩
  have bound := (distinct.subperm present).length_le
  simp [tried] at bound


/-- A temporary file is a new file that is written without bytes. -/
theorem makeTemporary_eq_ok (made : tree.makeTemporary dir = .ok (temporary, new)) :
    tree.write temporary .empty = .ok new ∧
      tree.top.find? (tree.placeOf temporary) = none := by
  obtain ⟨place, located, made⟩ := Fallible.bind_eq_ok.mp made
  obtain rfl := eq_placeOf_of_locate located
  split at made
  case h_2 => cases made
  case h_1 entries found =>
    obtain ⟨files, written, made⟩ := Fallible.bind_eq_ok.mp made
    cases made
    obtain ⟨number, -, fresh⟩ := exists_freshName_eq entries entries.length 0
    have free := lookup_freshName entries
    rw [fresh] at free written ⊢
    refine ⟨written, ?_⟩
    obtain ⟨inside, clean⟩ := FilePath.staysInside_of_isName (isName_temporary number)
    rw [placeOf_child inside, clean, FileNode.find?_append, found, Option.bind_some,
      FileNode.find?_singleton, free]

/-- What is written over a file that was just written takes its place. -/
theorem write_write {first : ByteArray} (written : tree.write path first = .ok new)
    (second : ByteArray) :
    ∃ last, tree.write path second = .ok last ∧ new.write path second = .ok last := by
  obtain ⟨place, name, target, noDirectory, noSlash, rfl⟩ := write_eq_ok.mp written
  obtain ⟨-, directory, -⟩ := target_eq_ok target
  refine ⟨tree.putAt (place ++ [name]) (.file second),
    write_eq_ok.mpr ⟨place, name, target, noDirectory, noSlash, rfl⟩,
    write_eq_ok.mpr ⟨place, name, ?_, ?_, noSlash, ?_⟩⟩
  · exact target_of_persists target rfl fun _ => isDirectory_putAt_file noDirectory
  · exact fun there => noDirectory (isDirectory_of_putAt_file directory there)
  · simp only [putAt, FileNode.put_put]

/-- A file that is new and is removed again leaves the tree as it was. -/
theorem removeFile_write {content : ByteArray} (written : tree.write path content = .ok new)
    (fresh : tree.top.find? (tree.placeOf path) = none) : new.removeFile path = .ok tree := by
  obtain ⟨place, name, target, noDirectory, -, rfl⟩ := write_eq_ok.mp written
  obtain ⟨placeOf, directory, -⟩ := target_eq_ok target
  have targetNew : (tree.putAt (place ++ [name]) (.file content)).target path =
      .ok (some (place, name)) :=
    target_of_persists target rfl fun _ => isDirectory_putAt_file noDirectory
  have found := find?_putAt_self directory name (.file content)
  rw [placeOf] at fresh
  refine Fallible.bind_eq_ok.mpr ⟨_, targetNew, ?_⟩
  dsimp only
  rw [found]
  simp only [putAt, FileNode.remove_put_of_fresh _ _ fresh]

theorem rename_eq_ok {source : FilePath} (renamed : tree.rename source path = .ok new) :
    ∃ oldPlace oldName content place name,
      tree.target source = .ok (some (oldPlace, oldName)) ∧
      tree.top.find? (oldPlace ++ [oldName]) = some (.file content) ∧
      tree.target path = .ok (some (place, name)) ∧
      ¬ tree.IsDirectory (place ++ [name]) ∧ path.endsWithSlash = false ∧
      new = if place ++ [name] = oldPlace ++ [oldName] then tree
        else { tree with
          top := (tree.top.remove (oldPlace ++ [oldName])).put (.file content) (place ++ [name]) } := by
  obtain ⟨oldEntry, sourceTarget, renamed⟩ := Fallible.bind_eq_ok.mp renamed
  obtain ⟨entry, target, renamed⟩ := Fallible.bind_eq_ok.mp renamed
  split at renamed
  case h_2 => cases renamed
  case h_1 =>
    rename_i oldPlace oldName place name _
    dsimp only at renamed
    split at renamed
    case h_1 => cases renamed
    case h_2 => cases renamed
    case h_3 => cases renamed
    case h_4 =>
      rename_i moved notDirectory found noDirectory
      split at renamed
      · cases renamed
      rename_i noSlash
      cases moved with
      | directory entries => exact absurd rfl (notDirectory entries)
      | file content =>
          refine ⟨oldPlace, oldName, content, place, name, sourceTarget, found, target, ?_,
            by simpa using noSlash, ?_⟩
          · rintro ⟨entries, there⟩
            exact noDirectory entries there
          · split at renamed
            · rename_i same
              cases renamed
              rw [if_pos same]
            · rename_i different
              cases renamed
              rw [if_neg different]

/-- Moving a new file to another path comes to writing it there. -/
theorem rename_write {content : ByteArray} {last : FileTree}
    (written : tree.write temporary content = .ok new)
    (fresh : tree.top.find? (tree.placeOf temporary) = none)
    (renamed : new.rename temporary path = .ok last) : tree.write path content = .ok last := by
  obtain ⟨oldPlace, oldName, oldTarget, noOldDirectory, -, rfl⟩ := write_eq_ok.mp written
  obtain ⟨oldPlaceOf, oldDirectory, -⟩ := target_eq_ok oldTarget
  rw [oldPlaceOf] at fresh
  obtain ⟨_, _, moved, place, name, sourceTarget, found, target, noDirectory, noSlash, result⟩ :=
    rename_eq_ok renamed
  have oldTargetNew : (tree.putAt (oldPlace ++ [oldName]) (.file content)).target temporary =
      .ok (some (oldPlace, oldName)) :=
    target_of_persists oldTarget rfl fun _ => isDirectory_putAt_file noOldDirectory
  rw [oldTargetNew] at sourceTarget
  cases sourceTarget
  rw [find?_putAt_self oldDirectory] at found
  cases found
  have targetOld : tree.target path = .ok (some (place, name)) :=
    target_of_persists target rfl fun _ => isDirectory_of_putAt_file oldDirectory
  have noDirectoryOld : ¬ tree.IsDirectory (place ++ [name]) := fun there =>
    noDirectory (isDirectory_putAt_file noOldDirectory there)
  refine write_eq_ok.mpr ⟨place, name, targetOld, noDirectoryOld, noSlash, ?_⟩
  rw [result]
  split
  · rename_i same
    rw [same]
  · simp only [putAt, FileNode.remove_put_of_fresh _ _ fresh]

end Temporary

end FileTree

namespace Session

/-- The directories above a file are made, and then a replacement that succeeds
comes to writing the file, and one that fails changes nothing else. -/
theorem run_replaceFile (path : FilePath) (content : ByteArray) (machine : Machine) :
    ∃ files, ((replaceFile path content).run machine).2 = { machine with files } ∧
      (∀ error, ((replaceFile path content).run machine).1 = .error error →
        files = (machine.files.makeDirectories path.directory).2) ∧
      (((replaceFile path content).run machine).1 = .ok () →
        (machine.files.makeDirectories path.directory).2.write path content = .ok files) := by
  cases directories : machine.files.makeDirectories path.directory with
  | mk result tree =>
  rw [replaceFile, run_bind, run_makeDirectories, directories]
  cases result with
  | error error => exact ⟨tree, rfl, fun _ _ => rfl, fun success => by cases success⟩
  | ok =>
      dsimp only
      rw [run_bind, run_makeTemporary]
      cases made : tree.makeTemporary path.directory with
      | error error => exact ⟨tree, rfl, fun _ _ => rfl, fun success => by cases success⟩
      | ok value =>
          obtain ⟨temporary, created⟩ := value
          obtain ⟨createdEmpty, fresh⟩ := FileTree.makeTemporary_eq_ok made
          obtain ⟨filled, written, writtenNow⟩ := FileTree.write_write createdEmpty content
          simp only [Machine.change]
          rw [run_bind, run_writeFile, writtenNow]
          simp only [Except.map, Machine.change]
          rw [run_bind, run_rename]
          cases renamed : filled.rename temporary path with
          | error error =>
              -- the temporary file is there, so it can be removed
              have removed := FileTree.removeFile_write written fresh
              refine ⟨tree, ?_, fun _ _ => rfl, fun success => ?_⟩
              · simp [abandon, removed, Except.map, Machine.change]
              · simp [abandon, Except.map, Machine.change] at success
          | ok last =>
              refine ⟨last, rfl, fun error failure => ?_, fun _ => ?_⟩
              · cases failure
              · exact FileTree.rename_write written fresh renamed

/-- Replacing a file changes no other file. -/
theorem fileAt_run_replaceFile (path : FilePath) (content : ByteArray) (machine : Machine)
    {place : List String} (elsewhere : place ≠ machine.files.placeOf path) :
    ((replaceFile path content).run machine).2.files.fileAt place =
      machine.files.fileAt place := by
  obtain ⟨files, ran, failed, succeeded⟩ := run_replaceFile path content machine
  have adds := FileTree.addsDirectories_makeDirectories path.directory machine.files
  have directories := congrFun adds.fileAt_eq place
  rw [ran]
  cases result : ((replaceFile path content).run machine).1 with
  | error error =>
      rw [failed error result]
      exact directories
  | ok =>
      obtain ⟨above, name, target, noDirectory, -, written⟩ :=
        FileTree.write_eq_ok.mp (succeeded result)
      obtain ⟨placeOf, directory, -⟩ := FileTree.target_eq_ok target
      rw [FileTree.placeOf_congr adds.workingDirectory_eq] at placeOf
      rw [written, FileTree.fileAt_putAt_file directory noDirectory, ← placeOf,
        Function.update_of_ne elsewhere]
      exact directories

/-- Replacing a file changes nothing outside of a place if the file belongs below
that place and so does everything on the way to the file that is not a directory
yet. -/
theorem sameOutside_run_replaceFile {below : List String} {path : FilePath}
    (content : ByteArray) (machine : Machine)
    (way : ∀ place, path.Passes machine.files.workingDirectory place →
      machine.files.IsDirectory place ∨ below <+: place)
    (inside : below <+: machine.files.placeOf path) :
    FileTree.SameOutside below machine.files
      ((replaceFile path content).run machine).2.files := by
  obtain ⟨files, ran, failed, succeeded⟩ := run_replaceFile path content machine
  have adds := FileTree.addsDirectories_makeDirectories path.directory machine.files
  have directories : FileTree.SameOutside below machine.files
      (machine.files.makeDirectories path.directory).2 := adds.sameOutside fun place named => by
    obtain ⟨above, member, spelled, notDot, rfl⟩ := named
    exact way _ (FilePath.passes_of_mem_ancestors_directory member spelled notDot)
  rw [ran]
  cases result : ((replaceFile path content).run machine).1 with
  | error error =>
      rw [failed error result]
      exact directories
  | ok =>
      obtain ⟨above, name, target, noDirectory, -, written⟩ :=
        FileTree.write_eq_ok.mp (succeeded result)
      obtain ⟨placeOf, -⟩ := FileTree.target_eq_ok target
      rw [FileTree.placeOf_congr adds.workingDirectory_eq] at placeOf
      rw [placeOf] at inside
      rw [written]
      exact directories.trans (FileTree.sameOutside_putAt inside noDirectory _)

theorem workingDirectory_run_replaceFile (path : FilePath) (content : ByteArray)
    (machine : Machine) :
    ((replaceFile path content).run machine).2.files.workingDirectory =
      machine.files.workingDirectory := by
  have everywhere : FileTree.SameOutside [] machine.files
      ((replaceFile path content).run machine).2.files :=
    sameOutside_run_replaceFile content machine (fun _ _ => .inr List.nil_prefix)
      List.nil_prefix
  exact everywhere.workingDirectory

theorem read_run_replaceFile {path : FilePath} {content : ByteArray} {machine : Machine}
    (success : ((replaceFile path content).run machine).1 = .ok ()) :
    ((replaceFile path content).run machine).2.files.read path = .ok content := by
  obtain ⟨files, ran, -, succeeded⟩ := run_replaceFile path content machine
  rw [ran]
  exact FileTree.read_write (succeeded success)

theorem readText_run_replaceFile {path : FilePath} {text : String} {machine : Machine}
    (success : ((replaceFile path text.toUTF8).run machine).1 = .ok ()) :
    ((replaceFile path text.toUTF8).run machine).2.files.readText path = .ok text :=
  FileTree.readText_of_read (read_run_replaceFile success)

end Session

end SymbolIndex
