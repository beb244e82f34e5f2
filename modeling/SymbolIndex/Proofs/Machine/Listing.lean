import SymbolIndex.Proofs.Machine.Branches

/-!
# Proper trees

In a proper tree every entry has a name that a path can spell, and no two
entries of a directory have the same one.  So what a directory lists can be told
apart by its names.
-/

namespace SymbolIndex

namespace FileNode

inductive Proper : FileNode → Prop where
  | file (content : ByteArray) : Proper (file content)
  | directory {entries : List (String × FileNode)}
      (names : ∀ entry ∈ entries, FilePath.IsName entry.1)
      (distinct : (entries.map Prod.fst).Nodup)
      (inner : ∀ entry ∈ entries, Proper entry.2) : Proper (directory entries)

/-- Entries with names of their own are found by them. -/
theorem lookup_eq_some_iff {entries : List (String × FileNode)}
    (distinct : (entries.map Prod.fst).Nodup) {name : String} {node : FileNode} :
    entries.lookup name = some node ↔ (name, node) ∈ entries := by
  induction entries with
  | nil => simp
  | cons entry entries ih =>
      obtain ⟨first, value⟩ := entry
      rw [List.map_cons, List.nodup_cons] at distinct
      rw [lookup_cons_eq_ite, List.mem_cons, Prod.mk.injEq]
      split
      · rename_i same
        subst same
        have noOther : (name, node) ∉ entries := fun member =>
          distinct.1 (List.mem_map.mpr ⟨_, member, rfl⟩)
        simp [noOther, eq_comm]
      · rename_i different
        simp [different, ih distinct.2]

theorem Proper.find? {node inner : FileNode} {place : List String} (proper : node.Proper)
    (found : node.find? place = some inner) : inner.Proper := by
  induction place generalizing node with
  | nil =>
      rw [find?_nil] at found
      cases found
      exact proper
  | cons name place ih =>
      cases proper with
      | file content => cases found
      | directory names distinct proper =>
          rw [FileNode.find?] at found
          split at found
          · rename_i node reached
            exact ih (proper _ ((lookup_eq_some_iff distinct).mp reached)) found
          · cases found

/-- What leads somewhere in a proper node are names. -/
theorem Proper.isName_of_find? {node inner : FileNode} {names : List String}
    (proper : node.Proper) (found : node.find? names = some inner) :
    ∀ name ∈ names, FilePath.IsName name := by
  induction names generalizing node with
  | nil => simp
  | cons name names ih =>
      cases proper with
      | file content => cases found
      | @directory entries isName distinct proper =>
          rw [FileNode.find?] at found
          split at found
          · rename_i next reached
            have isEntry := (lookup_eq_some_iff distinct).mp reached
            exact List.forall_mem_cons.mpr
              ⟨isName _ isEntry, ih (proper _ isEntry) found⟩
          · cases found

end FileNode

namespace FileTree

/-- What is listed in a directory of a proper tree can be told apart by its name. -/
theorem names_of_list {tree : FileTree} {path : FilePath} {listed : List (String × EntryKind)}
    (proper : tree.top.Proper) (found : tree.list path = .ok listed) :
    (∀ entry ∈ listed, FilePath.IsName entry.1) ∧ (listed.map Prod.fst).Nodup := by
  obtain ⟨entries, there, rfl⟩ := list_eq_ok found
  cases proper.find? there with
  | directory names distinct inner =>
      constructor
      · intro entry member
        obtain ⟨other, isEntry, rfl⟩ := List.mem_map.mp member
        exact names other isEntry
      · rwa [List.map_map]

end FileTree

end SymbolIndex
