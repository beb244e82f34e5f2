import SymbolIndex.Proofs.Machine.Changes

/-!
# Branches of a directory

The entries of a directory are branches that do not meet: what changes in one of
them is not noticed by a path that leads into another one.
-/

namespace SymbolIndex

namespace FileTree

section Congruence

variable {old new : FileTree} {path : FilePath}

/-- Whether two trees look the same to a path. -/
structure AlikeFor (old new : FileTree) (path : FilePath) : Prop where
  workingDirectory : new.workingDirectory = old.workingDirectory
  passed : ∀ place, path.Passes old.workingDirectory place → Alike old new place

theorem AlikeFor.refl (tree : FileTree) (path : FilePath) : AlikeFor tree tree path :=
  ⟨rfl, fun _ _ => .inl rfl⟩

theorem AlikeFor.locate_eq (alike : AlikeFor old new path) :
    new.locate path = old.locate path :=
  locate_congr alike.workingDirectory alike.passed

theorem AlikeFor.node_eq (alike : AlikeFor old new path)
    (sameEnd : new.top.find? (old.placeOf path) = old.top.find? (old.placeOf path)) :
    new.node path = old.node path := by
  cases located : old.locate path with
  | error error =>
      rw [node_of_locate_error located, node_of_locate_error (alike.locate_eq.trans located)]
  | ok place =>
      rw [node_of_locate located, node_of_locate (alike.locate_eq.trans located),
        eq_placeOf_of_locate located, sameEnd]

/-- A path leads to the same node in both trees, or to a directory in both. -/
theorem AlikeFor.node_eq_or (alike : AlikeFor old new path) :
    new.node path = old.node path ∨
      ∃ entries others, old.node path = .ok (.directory entries) ∧
        new.node path = .ok (.directory others) := by
  rcases alike.passed _ FilePath.passes_self with
    sameEnd | ⟨⟨entries, found⟩, others, foundNew⟩
  · exact .inl (alike.node_eq sameEnd)
  cases located : old.locate path with
  | error error =>
      rw [node_of_locate_error located, node_of_locate_error (alike.locate_eq.trans located)]
      exact .inl rfl
  | ok place =>
      obtain rfl := eq_placeOf_of_locate located
      rw [node_of_locate located, node_of_locate (alike.locate_eq.trans located), placeOf, found,
        foundNew]
      exact .inr ⟨entries, others, rfl, rfl⟩

theorem AlikeFor.read_eq (alike : AlikeFor old new path) : new.read path = old.read path := by
  rcases alike.node_eq_or with same | ⟨entries, others, found, foundNew⟩
  · rw [read, read, same]
  · rw [read, read, found, foundNew]
    rfl

theorem AlikeFor.kind?_eq (alike : AlikeFor old new path) :
    new.kind? path = old.kind? path := by
  rcases alike.node_eq_or with same | ⟨entries, others, found, foundNew⟩
  · rw [kind?, kind?, same]
  · rw [kind?, kind?, found, foundNew]
    rfl

end Congruence

section Branches

variable {tree old new : FileTree} {root path : FilePath} {branch other : String}
  {place below : List String}

/-- Whether a path leads into a branch of the directory `root`: it passes only
directories that are there and places in the branch, and ends in the branch. -/
structure LeadsInto (tree : FileTree) (root : FilePath) (branch : String) (path : FilePath) :
    Prop where
  inside : tree.placeOf root ++ [branch] <+: tree.placeOf path
  passed : ∀ place, path.Passes tree.workingDirectory place →
    tree.IsDirectory place ∨ tree.placeOf root ++ [branch] <+: place

theorem leadsInto_child (enters : tree.Enters root)
    (isName : FilePath.IsName branch) : LeadsInto tree root branch (root.child branch) := by
  obtain ⟨stays, clean⟩ := FilePath.staysInside_of_isName isName
  have placeOf : tree.placeOf (root.child branch) = tree.placeOf root ++ [branch] := by
    rw [placeOf_child stays, clean]
  refine ⟨⟨[], by rw [placeOf, List.append_nil]⟩, fun place passes => ?_⟩
  rcases FilePath.passes_join stays.1 passes with passesRoot | ⟨first, isFirst, rfl⟩
  · exact .inl (enters.isDirectory_of_passes passesRoot)
  · rw [FilePath.pieces_of_not_mem isName.2.2.2] at isFirst
    cases first with
    | nil => exact .inl enters.2
    | cons piece others =>
        obtain ⟨rfl, isLast⟩ := List.cons_prefix_cons.mp isFirst
        obtain rfl := List.prefix_nil.mp isLast
        right
        rw [List.foldl_cons, List.foldl_nil, FilePath.stepPlace,
          if_neg (by simp [isName.1, isName.2.1]), if_neg isName.2.2.1]
        exact List.prefix_rfl

theorem LeadsInto.child {text : String} (leads : LeadsInto tree root branch path)
    (inside : (FilePath.mk text).StaysInside) :
    LeadsInto tree root branch (path.child text) := by
  refine ⟨?_, fun place passes => ?_⟩
  · rw [placeOf_child inside]
    exact leads.inside.trans (List.prefix_append ..)
  · rcases FilePath.passes_join inside.1 passes with passesPath | ⟨first, isFirst, rfl⟩
    · exact leads.passed place passesPath
    · obtain ⟨below, reached⟩ :=
        FilePath.exists_foldl_stepPlace_eq inside isFirst (tree.placeOf path)
      right
      rw [← placeOf, reached]
      exact leads.inside.trans (List.prefix_append ..)

theorem LeadsInto.mono (leads : LeadsInto old root branch path)
    (sameStart : new.workingDirectory = old.workingDirectory)
    (persists : ∀ place, old.IsDirectory place → new.IsDirectory place) :
    LeadsInto new root branch path := by
  refine ⟨?_, fun place passes => ?_⟩
  · rw [placeOf_congr sameStart, placeOf_congr sameStart]
    exact leads.inside
  · rw [placeOf_congr sameStart]
    rw [sameStart] at passes
    exact (leads.passed place passes).imp_left (persists place)

/-- Two branches have no place in common. -/
theorem apart_of_branches (differ : branch ≠ other) (inside : place ++ [branch] <+: below) :
    ¬ below <+: place ++ [other] ∧ ¬ place ++ [other] <+: below := by
  obtain ⟨rest, rfl⟩ := inside
  rw [List.append_assoc, List.prefix_append_right_inj, List.prefix_append_right_inj]
  simp [differ, Ne.symm differ]

/-- Changes in one branch are not noticed in another one. -/
theorem LeadsInto.alikeFor (leads : LeadsInto old root branch path) (differ : branch ≠ other)
    (same : SameOutside (old.placeOf root ++ [other]) old new) :
    AlikeFor old new path ∧
      new.top.find? (old.placeOf path) = old.top.find? (old.placeOf path) := by
  refine ⟨⟨same.workingDirectory, fun passed passes => ?_⟩, ?_⟩
  · rcases leads.passed passed passes with directory | inside
    · exact .inr ⟨directory, same.directory passed directory⟩
    · obtain ⟨notAbove, notBelow⟩ := apart_of_branches differ inside
      exact .inl (same.node passed notAbove notBelow)
  · obtain ⟨notAbove, notBelow⟩ := apart_of_branches differ leads.inside
    exact same.node _ notAbove notBelow

/-- Whether one tree comes from another by changes in one branch of a directory,
which is there if anything has changed. -/
def ChangesIn (root : FilePath) (branch : String) (old new : FileTree) : Prop :=
  new = old ∨ (old.Enters root ∧ SameOutside (old.placeOf root ++ [branch]) old new)

namespace ChangesIn

variable {middle : FileTree}

theorem refl (root : FilePath) (branch : String) (tree : FileTree) :
    ChangesIn root branch tree tree :=
  .inl rfl

theorem workingDirectory_eq (changes : ChangesIn root branch old new) :
    new.workingDirectory = old.workingDirectory := by
  rcases changes with rfl | ⟨-, same⟩
  · rfl
  · exact same.workingDirectory

theorem placeOf_eq (changes : ChangesIn root branch old new) (path : FilePath) :
    new.placeOf path = old.placeOf path :=
  placeOf_congr changes.workingDirectory_eq path

theorem isDirectory (changes : ChangesIn root branch old new) (place : List String)
    (directory : old.IsDirectory place) : new.IsDirectory place := by
  rcases changes with rfl | ⟨-, same⟩
  · exact directory
  · exact same.directory place directory

theorem trans (first : ChangesIn root branch old middle)
    (second : ChangesIn root branch middle new) : ChangesIn root branch old new := by
  rcases first with rfl | ⟨enters, same⟩
  · exact second
  · rcases second with rfl | ⟨-, sameAfter⟩
    · exact .inr ⟨enters, same⟩
    · rw [placeOf_congr same.workingDirectory] at sameAfter
      exact .inr ⟨enters, same.trans sameAfter⟩

theorem enters (changes : ChangesIn root branch old new) (enters : old.Enters root) :
    new.Enters root :=
  enters.mono changes.workingDirectory_eq changes.isDirectory

theorem enters_old (changes : ChangesIn root branch old new) (enters : new.Enters root) :
    old.Enters root := by
  rcases changes with rfl | ⟨entersOld, -⟩
  · exact enters
  · exact entersOld

/-- Changes in one branch are not noticed in another one. -/
theorem alikeFor (changes : ChangesIn root other old new)
    (leads : old.Enters root → LeadsInto old root branch path) (differ : branch ≠ other) :
    AlikeFor old new path ∧
      new.top.find? (old.placeOf path) = old.top.find? (old.placeOf path) := by
  rcases changes with rfl | ⟨enters, same⟩
  · exact ⟨.refl new path, rfl⟩
  · exact (leads enters).alikeFor differ same

end ChangesIn

end Branches

end FileTree

end SymbolIndex
