import SymbolIndex.Index.Store
import SymbolIndex.Proofs.Index.Codec
import SymbolIndex.Proofs.Machine.Acceptance

/-!
# Saving and loading an index

What was saved is loaded again, whatever was at the path before.
-/

namespace SymbolIndex

namespace Index

theorem ofBytes?_toBytes {index : Index} (small : index.toBytes.size ≤ maxSize) :
    ofBytes? index.toBytes = some index := by
  have bytes : index.toBytes.data.toList = index.encode := by
    rw [toBytes, List.data_toByteArray]
  have size : index.encode.length < UInt32.size := by
    have sameSize : index.toBytes.size = index.encode.length := by
      rw [← bytes]
      rfl
    simp only [maxSize, UInt32.size] at small ⊢
    omega
  rw [ofBytes?, bytes]
  exact decode?_encode size

section Saving

variable {world : World} {path : FilePath} {index : Index} {state after : world.State}

/-- An index is saved when it is not too large and its bytes take the place of the file. -/
theorem runIn_save_eq_ok : ((index.save path).runIn world state).1 = .ok () ↔
    index.toBytes.size ≤ maxSize ∧
      ∃ replaced, world.Replaces path index.toBytes state replaced := by
  unfold save
  dsimp only
  split
  · rename_i large
    exact ⟨nofun, fun saves => absurd saves.1 (Nat.not_le_of_lt large)⟩
  · rename_i small
    rw [Attempt.runIn_bind, Attempt.runIn_ofSession]
    rcases replaced : (Session.replaceFile path index.toBytes).runIn world state with
      ⟨error | _, middle⟩
    · refine ⟨nofun, fun ⟨_, _, replaces⟩ => ?_⟩
      cases replaced.symm.trans (Session.runIn_replaceFile_eq_ok.mpr replaces)
    · exact ⟨fun _ => ⟨Nat.le_of_not_lt small, _, Session.runIn_replaceFile_eq_ok.mp replaced⟩,
        fun _ => rfl⟩

/-- A save that succeeds has written the bytes of the index. -/
theorem read_of_save (saved : (index.save path).runIn world state = (.ok (), after)) :
    (world.files after).read path = .ok index.toBytes := by
  unfold save at saved
  dsimp only at saved
  split at saved
  · cases saved
  · obtain ⟨_, middle, replaced, reported⟩ := Attempt.runIn_bind_eq_ok.mp saved
    -- reporting the save changes no file
    rw [Attempt.files_eq_of_only (Attempt.only_lift (Session.only_request rfl)) reported]
    exact Session.read_runIn_replaceFile (Attempt.runIn_ofSession_eq_ok.mp replaced)

/-- An index that was saved is loaded again, whatever was on the machine before. -/
theorem load_save {machine : Machine} (saved : ((index.save path).runOn machine).1 = .ok ()) :
    ((load path).runOn ((index.save path).runOn machine).2).1 = .ok index := by
  rw [← Attempt.runIn_ofMachine] at saved
  have small := (runIn_save_eq_ok.mp saved).1
  have read := read_of_save (Attempt.runIn_eq_mk saved)
  rw [Attempt.runIn_ofMachine] at read
  simp [load, Attempt.runOn_bind, read, ofBytes?_toBytes small]

end Saving

/-- An index with a negative column and a symbol that is documented in two
lines. -/
def documentedIndex : Index where
  metadata := some { toolInfo := some {}, projectRoot := "file:///p" }
  documents := [
    { language := "python"
      relativePath := "a.py"
      occurrences := [⟨[0, -1, 3], "local 0", 1⟩, {}]
      symbols := [⟨"local 0", ["def é", ""], ""⟩] }]

/-- A machine on which `out/index.scip` is some other file. -/
def occupiedMachine : Machine where
  files := ⟨.directory [("out", .directory [("index.scip", .file "old".toUTF8)])], []⟩

theorem load_save_documentedIndex :
    ((documentedIndex.save ⟨"out/index.scip"⟩).runOn occupiedMachine).1 = .ok () ∧
      ((load ⟨"out/index.scip"⟩).runOn
        ((documentedIndex.save ⟨"out/index.scip"⟩).runOn occupiedMachine).2).1 =
        .ok documentedIndex := by
  have saved : ((documentedIndex.save ⟨"out/index.scip"⟩).runOn occupiedMachine).1 = .ok () := by
    decide +kernel
  exact ⟨saved, load_save saved⟩

end Index

end SymbolIndex
