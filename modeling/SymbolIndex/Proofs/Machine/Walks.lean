import SymbolIndex.Proofs.FilePath.Below
import SymbolIndex.Proofs.Machine.Listing
import Mathlib.Data.List.Nodup

/-!
# Walks

A walk through a node comes to everything below it once, with the names that lead there.
In a proper node these names lead to one thing only, and a walk through a branch stays in
the branch.  Where the directories and the files of a tree are decides which paths can be
followed, whatever is in the files and in whatever order a directory has its entries.
-/

namespace SymbolIndex

namespace FileNode

mutual

/-- The names that lead to a node and to everything below it, in the order of a walk. -/
def places : FileNode → List (List String × EntryKind)
  | file _ => [([], .file)]
  | directory entries => ([], .directory) :: placesIn entries

def placesIn : List (String × FileNode) → List (List String × EntryKind)
  | [] => []
  | (name, node) :: rest =>
    (node.places.map fun (names, kind) => (name :: names, kind)) ++ placesIn rest

end

mutual

theorem walk_eq (path : FilePath) : (node : FileNode) →
    node.walk path = node.places.map fun (names, kind) => (path.below names, kind)
  | file _ => rfl
  | directory entries => by
    rw [walk, places, List.map_cons, walkEntries_eq path entries]
    rfl

theorem walkEntries_eq (path : FilePath) : (entries : List (String × FileNode)) →
    walkEntries path entries = (placesIn entries).map fun (names, kind) => (path.below names, kind)
  | [] => rfl
  | (name, node) :: rest => by
    rw [walkEntries, placesIn, List.map_append, List.map_map, walk_eq (path.child name) node,
      walkEntries_eq path rest]
    rfl

end

theorem mem_placesIn {entries : List (String × FileNode)} {names : List String}
    {kind : EntryKind} : (names, kind) ∈ placesIn entries ↔
      ∃ name node rest, (name, node) ∈ entries ∧ names = name :: rest ∧
        (rest, kind) ∈ node.places := by
  induction entries with
  | nil => simp [placesIn]
  | cons entry entries ih =>
      obtain ⟨name, node⟩ := entry
      rw [placesIn, List.mem_append, ih, List.mem_map]
      constructor
      · rintro (⟨⟨rest, _⟩, member, ⟨⟩⟩ | ⟨other, inner, rest, member, rfl, reached⟩)
        · exact ⟨name, node, rest, List.mem_cons_self, rfl, member⟩
        · exact ⟨other, inner, rest, List.mem_cons_of_mem _ member, rfl, reached⟩
      · rintro ⟨other, inner, rest, member, rfl, reached⟩
        rcases List.mem_cons.mp member with same | member
        · cases same
          exact .inl ⟨(rest, kind), reached, rfl⟩
        · exact .inr ⟨other, inner, rest, member, rfl, reached⟩

/-- A walk through a proper node comes to all that names lead to. -/
theorem mem_places {node : FileNode} (proper : node.Proper) {names : List String}
    {kind : EntryKind} :
    (names, kind) ∈ node.places ↔ ∃ inner, node.find? names = some inner ∧ inner.kind = kind := by
  induction proper generalizing names with
  | file content =>
      cases names with
      | nil => simp [places, FileNode.kind, eq_comm]
      | cons name names => simp [places, find?]
  | @directory entries isName distinct inner ih =>
      cases names with
      | nil => simp [places, FileNode.kind, eq_comm, mem_placesIn]
      | cons name names =>
          have below : (directory entries).find? (name :: names) =
              (entries.lookup name).bind (·.find? names) := by
            rw [find?]
            cases entries.lookup name <;> rfl
          simp only [places, List.mem_cons, Prod.mk.injEq, reduceCtorEq, false_and, false_or,
            mem_placesIn, below, Option.bind_eq_some_iff, lookup_eq_some_iff distinct]
          constructor
          · rintro ⟨_, node, _, isEntry, ⟨⟩, reached⟩
            obtain ⟨found, there, isKind⟩ := (ih _ isEntry).mp reached
            exact ⟨found, ⟨node, isEntry, there⟩, isKind⟩
          · rintro ⟨found, ⟨node, isEntry, there⟩, isKind⟩
            exact ⟨name, node, names, isEntry, rfl, (ih _ isEntry).mpr ⟨found, there, isKind⟩⟩

theorem nodup_placesIn {entries : List (String × FileNode)}
    (distinct : (entries.map Prod.fst).Nodup)
    (inner : ∀ entry ∈ entries, (entry.2.places.map Prod.fst).Nodup) :
    ((placesIn entries).map Prod.fst).Nodup := by
  induction entries with
  | nil => exact List.nodup_nil
  | cons entry entries ih =>
      obtain ⟨name, node⟩ := entry
      rw [List.map_cons, List.nodup_cons] at distinct
      obtain ⟨first, others⟩ := List.forall_mem_cons.mp inner
      have firstPlaces : (node.places.map fun (names, kind) => (name :: names, kind)).map Prod.fst =
          (node.places.map Prod.fst).map (name :: ·) := by
        rw [List.map_map, List.map_map]
        rfl
      rw [placesIn, List.map_append, firstPlaces]
      refine List.Nodup.append (first.map (List.cons_injective)) (ih distinct.2 others) ?_
      -- what is below another entry does not start with this name
      intro names isFirst isOther
      obtain ⟨inside, -, rfl⟩ := List.mem_map.mp isFirst
      obtain ⟨⟨_, kind⟩, member, same⟩ := List.mem_map.mp isOther
      cases same
      obtain ⟨_, other, _, isEntry, ⟨⟩, -⟩ := mem_placesIn.mp member
      exact distinct.1 (List.mem_map.mpr ⟨_, isEntry, rfl⟩)

/-- A walk through a proper node comes to nothing twice. -/
theorem nodup_places {node : FileNode} (proper : node.Proper) :
    (node.places.map Prod.fst).Nodup := by
  induction proper with
  | file content => exact List.nodup_singleton []
  | @directory entries isName distinct inner ih =>
      rw [places, List.map_cons, List.nodup_cons]
      refine ⟨fun member => ?_, nodup_placesIn distinct ih⟩
      obtain ⟨⟨_, kind⟩, isPlace, same⟩ := List.mem_map.mp member
      cases same
      obtain ⟨_, _, _, -, isEmpty, -⟩ := mem_placesIn.mp isPlace
      cases isEmpty

end FileNode

namespace FileTree

variable {tree old new : FileTree} {path : FilePath} {place : List String}

theorem LeadsInto.below {root : FilePath} {branch : String}
    (leads : LeadsInto tree root branch path) {names : List String}
    (areNames : ∀ name ∈ names, FilePath.IsName name) :
    LeadsInto tree root branch (path.below names) := by
  induction names generalizing path with
  | nil => exact leads
  | cons name names ih =>
      obtain ⟨isName, areNames⟩ := List.forall_mem_cons.mp areNames
      exact ih (leads.child (FilePath.staysInside_of_isName isName).1) areNames

theorem placeOf_below (tree : FileTree) (path : FilePath) {names : List String}
    (areNames : ∀ name ∈ names, FilePath.IsName name) :
    tree.placeOf (path.below names) = tree.placeOf path ++ names := by
  induction names generalizing path with
  | nil => simp [FilePath.below]
  | cons name names ih =>
      obtain ⟨isName, areNames⟩ := List.forall_mem_cons.mp areNames
      obtain ⟨inside, cleaned⟩ := FilePath.staysInside_of_isName isName
      have rest := ih (path.child name) areNames
      rw [placeOf_child inside, cleaned, List.append_assoc] at rest
      exact rest

/-- What is found on a walk through a branch lies in the branch. -/
theorem LeadsInto.walk {root : FilePath} {branch : String}
    (leads : LeadsInto tree root branch path)
    (proper : ∀ node, tree.top.find? (tree.placeOf path) = some node → node.Proper)
    {entries : List (FilePath × EntryKind)} (walked : tree.walk path = .ok entries)
    {found : FilePath × EntryKind} (member : found ∈ entries) :
    LeadsInto tree root branch found.1 := by
  obtain ⟨node, reached, walked⟩ := Fallible.bind_eq_ok.mp walked
  cases walked
  have isProper := proper node (node_eq_ok.mp reached).2
  rw [FileNode.walk_eq, List.mem_map] at member
  obtain ⟨⟨names, kind⟩, isPlace, rfl⟩ := member
  obtain ⟨inner, there, -⟩ := (FileNode.mem_places isProper).mp isPlace
  exact leads.below (isProper.isName_of_find? there)

/-- Whether something is a file can be told from where it is below a directory. -/
theorem exists_find?_iff {node : FileNode} (found : tree.node path = .ok node)
    {names : List String} :
    (∃ inner, node.find? names = some inner ∧ inner.kind = .file) ↔
      (tree.fileAt (tree.placeOf path ++ names)).isSome = true := by
  rw [fileAt, FileNode.find?_append, (node_eq_ok.mp found).2, Option.bind_some]
  cases node.find? names with
  | none => simp
  | some inner => cases inner <;> simp [FileNode.kind]

/-- Two trees with directories and with files in the same places. -/
structure SameShape (old new : FileTree) : Prop where
  workingDirectory : new.workingDirectory = old.workingDirectory
  directories : ∀ place, new.IsDirectory place ↔ old.IsDirectory place
  files : ∀ place, (new.fileAt place).isSome = (old.fileAt place).isSome

namespace SameShape

theorem isSome_find? (same : SameShape old new) (place : List String) :
    (new.top.find? place).isSome = (old.top.find? place).isSome := by
  have told (tree : FileTree) : (tree.top.find? place).isSome = true ↔
      tree.IsDirectory place ∨ (tree.fileAt place).isSome = true := by
    rw [IsDirectory, fileAt]
    cases tree.top.find? place with
    | none => simp
    | some node => cases node <;> simp
  rw [Bool.eq_iff_iff, told, told, same.directories, same.files]

theorem step (same : SameShape old new) (place : List String) (piece : String) :
    new.step place piece = old.step place piece := by
  by_cases directory : old.IsDirectory place
  · rw [step_of_isDirectory directory,
      step_of_isDirectory ((same.directories place).mpr directory), same.isSome_find?]
  · have notDirectory : ¬ new.IsDirectory place := fun stillDirectory =>
      directory ((same.directories place).mp stillDirectory)
    have told {tree : FileTree} (none : ¬ tree.IsDirectory place) : tree.step place piece =
        if (tree.top.find? place).isSome then .error .notDirectory else .error .notFound := by
      rw [FileTree.step]
      cases there : tree.top.find? place with
      | none => rfl
      | some node =>
          cases node with
          | file content => rfl
          | directory entries => exact absurd ⟨entries, there⟩ none
    rw [told notDirectory, told directory, same.isSome_find?]

theorem locate (same : SameShape old new) (path : FilePath) :
    new.locate path = old.locate path := by
  have step : new.step = old.step := funext fun place => funext fun piece => same.step place piece
  unfold FileTree.locate
  rw [start_congr same.workingDirectory, step]

theorem placeOf (same : SameShape old new) (path : FilePath) :
    new.placeOf path = old.placeOf path :=
  placeOf_congr same.workingDirectory path

theorem isSome_kind? (same : SameShape old new) (path : FilePath) :
    (new.kind? path).isSome = (old.kind? path).isSome := by
  have told (tree : FileTree) : (tree.kind? path).isSome = true ↔
      tree.locate path = .ok (tree.placeOf path) ∧
        (tree.top.find? (tree.placeOf path)).isSome = true := by
    cases found : tree.node path with
    | error error =>
        rw [kind?_of_node_error found]
        simp only [Option.isSome_none, Bool.false_eq_true, false_iff, not_and]
        intro located there
        obtain ⟨node, isThere⟩ := Option.isSome_iff_exists.mp there
        cases found.symm.trans (node_eq_ok.mpr ⟨located, isThere⟩)
    | ok node =>
        obtain ⟨located, there⟩ := node_eq_ok.mp found
        simp [kind?_of_node found, located, there]
  rw [Bool.eq_iff_iff, told, told, same.locate, same.placeOf, same.isSome_find?]

/-- A path reads the same as long as the file in its place is the same. -/
theorem read (same : SameShape old new)
    (sameFile : new.fileAt (old.placeOf path) = old.fileAt (old.placeOf path)) :
    new.read path = old.read path := by
  rw [read_eq, read_eq, same.locate]
  cases located : old.locate path with
  | error error => rfl
  | ok place =>
      obtain rfl := eq_placeOf_of_locate located
      simp only [Except.bind, sameFile, same.isSome_find?]

end SameShape

/-- A file can be given other bytes without any change to the shape of a tree. -/
theorem sameShape_putAt {name : String}
    (isFile : (tree.fileAt (place ++ [name])).isSome = true) (content : ByteArray) :
    SameShape tree (tree.putAt (place ++ [name]) (.file content)) := by
  have directory : tree.IsDirectory place := by
    by_contra none
    rw [fileAt, find?_eq_none_of_not_isDirectory none] at isFile
    cases isFile
  have noDirectory : ¬ tree.IsDirectory (place ++ [name]) := by
    intro isDirectory
    rw [fileAt_eq_none_of_isDirectory isDirectory] at isFile
    cases isFile
  refine ⟨rfl, fun other => ⟨fun stillDirectory => ?_, fun wasDirectory => ?_⟩, fun other => ?_⟩
  · by_cases below : place ++ [name] <+: other
    · obtain ⟨rest, rfl⟩ := below
      obtain ⟨entries, found⟩ := stillDirectory
      rw [find?_putAt_below directory] at found
      cases rest <;> simp [FileNode.find?] at found
    · by_cases above : other <+: place ++ [name]
      · rcases List.prefix_concat_iff.mp above with rfl | above
        · exact absurd List.prefix_rfl below
        · exact isDirectory_of_above above directory
      · rwa [IsDirectory, find?_putAt_of_apart above below] at stillDirectory
  · exact isDirectory_putAt wasDirectory fun below =>
      noDirectory (isDirectory_of_above below wasDirectory)
  · rw [fileAt_putAt_file directory noDirectory]
    by_cases same : other = place ++ [name]
    · subst same
      rw [Function.update_self, isFile]
      rfl
    · rw [Function.update_of_ne same]

end FileTree

end SymbolIndex
