import SymbolIndex.Machine.FileTree
import SymbolIndex.Proofs.Entries

/-!
# Changes inside a node

Putting a node at a place and removing one change the entries of a single
directory.  What such a change does to the other places of a node depends only
on where they lie: a place that is neither above nor below the directory keeps
its node, and a directory above it stays a directory.
-/

namespace SymbolIndex

namespace FileNode

section Find

variable {node : FileNode}

@[simp]
theorem find?_nil (node : FileNode) : node.find? [] = some node := by
  cases node <;> rfl

theorem find?_append (node : FileNode) (place rest : List String) :
    node.find? (place ++ rest) = (node.find? place).bind (·.find? rest) := by
  induction place generalizing node with
  | nil => simp
  | cons name place ih =>
      cases node with
      | file content => rfl
      | directory entries =>
          cases found : entries.lookup name with
          | none => simp [find?, found]
          | some inner => simp [find?, found, ih]

theorem find?_singleton (entries : List (String × FileNode)) (name : String) :
    (directory entries).find? [name] = entries.lookup name := by
  cases found : entries.lookup name with
  | none => simp [find?, found]
  | some inner => simp [find?, found]

end Find

/-- A node with the entries of the directory at a place changed. -/
def changeEntries (change : List (String × FileNode) → List (String × FileNode)) :
    FileNode → List String → FileNode
  | directory entries, [] => directory (change entries)
  | directory entries, name :: rest =>
    match entries.lookup name with
    | some inner => directory (setEntry name (inner.changeEntries change rest) entries)
    | none => directory entries
  | file content, _ => file content

section Changes

variable {change : List (String × FileNode) → List (String × FileNode)}

theorem put_append (node value : FileNode) (place : List String) (name : String) :
    node.put value (place ++ [name]) = node.changeEntries (setEntry name value) place := by
  induction place generalizing node with
  | nil => cases node <;> rfl
  | cons first place ih =>
      cases node with
      | file content => cases place <;> rfl
      | directory entries =>
          cases found : entries.lookup first with
          | none => cases place <;> simp [put, changeEntries, found]
          | some inner =>
              have deeper := ih inner
              cases place <;> simp_all [put, changeEntries]

theorem remove_append (node : FileNode) (place : List String) (name : String) :
    node.remove (place ++ [name]) =
      node.changeEntries (·.filter fun entry => entry.1 ≠ name) place := by
  induction place generalizing node with
  | nil => cases node <;> rfl
  | cons first place ih =>
      cases node with
      | file content => cases place <;> rfl
      | directory entries =>
          cases found : entries.lookup first with
          | none => cases place <;> simp [remove, changeEntries, found]
          | some inner =>
              have deeper := ih inner
              cases place <;> simp_all [remove, changeEntries]

/-- A place at or above the changed directory has the node with the change in
it. -/
theorem find?_changeEntries_append
    (change : List (String × FileNode) → List (String × FileNode)) (node : FileNode)
    (place rest : List String) :
    (node.changeEntries change (place ++ rest)).find? place =
      (node.find? place).map fun inner => inner.changeEntries change rest := by
  induction place generalizing node with
  | nil => simp
  | cons name place ih =>
      cases node with
      | file content => rfl
      | directory entries =>
          cases found : entries.lookup name with
          | none => simp [changeEntries, find?, found]
          | some inner => simp [changeEntries, find?, found, lookup_setEntry, ih]

/-- A place that is neither above the changed directory nor below it keeps its
node. -/
theorem find?_changeEntries_of_apart (node : FileNode) {place other : List String}
    (notAbove : ¬ other <+: place) (notBelow : ¬ place <+: other) :
    (node.changeEntries change place).find? other = node.find? other := by
  induction place generalizing node other with
  | nil => exact absurd List.nil_prefix notBelow
  | cons name place ih =>
      cases other with
      | nil => exact absurd List.nil_prefix notAbove
      | cons first other =>
          cases node with
          | file content => rfl
          | directory entries =>
              cases found : entries.lookup name with
              | none => simp [changeEntries, found]
              | some inner =>
                  by_cases same : first = name
                  · subst same
                    rw [List.cons_prefix_cons, not_and] at notAbove notBelow
                    simp [changeEntries, find?, found, lookup_setEntry,
                      ih inner (notAbove rfl) (notBelow rfl)]
                  · simp [changeEntries, find?, found, lookup_setEntry, same]

theorem changeEntries_changeEntries
    (first second : List (String × FileNode) → List (String × FileNode)) (node : FileNode)
    (place : List String) :
    (node.changeEntries first place).changeEntries second place =
      node.changeEntries (fun entries => second (first entries)) place := by
  induction place generalizing node with
  | nil => cases node <;> rfl
  | cons name place ih =>
      cases node with
      | file content => rfl
      | directory entries =>
          cases found : entries.lookup name with
          | none => simp [changeEntries, found]
          | some inner => simp [changeEntries, found, lookup_setEntry, setEntry_setEntry, ih]

/-- A change that changes nothing in the directory changes nothing. -/
theorem changeEntries_eq_self (node : FileNode) {place : List String}
    (same : ∀ entries, node.find? place = some (directory entries) → change entries = entries) :
    node.changeEntries change place = node := by
  induction place generalizing node with
  | nil =>
      cases node with
      | file content => rfl
      | directory entries => rw [changeEntries, same entries rfl]
  | cons name place ih =>
      cases node with
      | file content => rfl
      | directory entries =>
          cases found : entries.lookup name with
          | none => simp [changeEntries, found]
          | some inner =>
              have unchanged := ih inner fun others reached =>
                same others (by simp [find?, found, reached])
              simp [changeEntries, found, unchanged, setEntry_of_lookup found]

theorem put_put (node first second : FileNode) (place : List String) (name : String) :
    (node.put first (place ++ [name])).put second (place ++ [name]) =
      node.put second (place ++ [name]) := by
  simp [put_append, changeEntries_changeEntries, setEntry_setEntry]

/-- A new node that is removed again leaves everything as it was. -/
theorem remove_put_of_fresh (node value : FileNode) {place : List String} {name : String}
    (fresh : node.find? (place ++ [name]) = none) :
    (node.put value (place ++ [name])).remove (place ++ [name]) = node := by
  rw [put_append, remove_append, changeEntries_changeEntries]
  refine changeEntries_eq_self node fun entries found => filter_setEntry_of_fresh ?_ value
  rw [find?_append, found, Option.bind_some, find?_singleton] at fresh
  exact fresh

end Changes

end FileNode

end SymbolIndex
