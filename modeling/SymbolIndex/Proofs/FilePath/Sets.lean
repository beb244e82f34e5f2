import SymbolIndex.FilePath.Order
import SymbolIndex.Proofs.FilePath.Cleaning
import Mathlib.Data.List.Nodup

/-!
# Sets of cleaned paths

A set of paths has the steps of the paths that it was made of.  A set of cleaned paths
is told by these steps alone, so that neither the order nor the spelling of the paths
counts.
-/

namespace SymbolIndex

open FilePath (Component)

namespace PathSet

variable {paths : List FilePath} {path : FilePath} {steps : List Component}

theorem mem_of_mem_dropRepeats {last : FilePath} (member : path ∈ dropRepeats last paths) :
    path ∈ paths := by
  fun_induction dropRepeats last paths with
  | case1 => exact member
  | case2 last other rest same ih => exact List.mem_cons_of_mem other (ih member)
  | case3 last other rest differ ih =>
      rcases List.mem_cons.mp member with rfl | later
      · exact List.mem_cons_self
      · exact List.mem_cons_of_mem other (ih later)

theorem exists_mem_dropRepeats {last : FilePath} (member : path ∈ last :: paths) :
    ∃ other ∈ last :: dropRepeats last paths, other.components = path.components := by
  fun_induction dropRepeats last paths with
  | case1 last => exact ⟨path, member, rfl⟩
  | case2 last other rest same ih =>
      rcases List.mem_cons.mp member with rfl | later
      · exact ih List.mem_cons_self
      · rcases List.mem_cons.mp later with rfl | later
        · exact ⟨last, List.mem_cons_self, same⟩
        · exact ih (List.mem_cons_of_mem last later)
  | case3 last other rest differ ih =>
      rcases List.mem_cons.mp member with rfl | later
      · exact ⟨path, List.mem_cons_self, rfl⟩
      · obtain ⟨found, isMember, same⟩ := ih later
        exact ⟨found, List.mem_cons_of_mem last isMember, same⟩

theorem mem_of_mem_ofList (member : path ∈ (ofList paths).paths) : path ∈ paths := by
  have sorted : path ∈ sort paths := by
    unfold ofList at member
    split at member
    · cases member
    · rename_i first rest sorted
      rw [sorted]
      rcases List.mem_cons.mp member with rfl | later
      · exact List.mem_cons_self
      · exact List.mem_cons_of_mem first (mem_of_mem_dropRepeats later)
  exact List.mem_mergeSort.mp sorted

theorem exists_mem_ofList (member : path ∈ paths) :
    ∃ other ∈ (ofList paths).paths, other.components = path.components := by
  have isSorted : path ∈ sort paths := List.mem_mergeSort.mpr member
  unfold ofList
  split
  · rename_i none
    rw [none] at isSorted
    cases isSorted
  · rename_i first rest sorted
    rw [sorted] at isSorted
    exact exists_mem_dropRepeats isSorted

/-- A set of paths has the steps of the paths when they are cleaned. -/
theorem mem_map_clean_ofList :
    steps ∈ (ofList paths).paths.map (·.clean.components) ↔
      steps ∈ paths.map (·.clean.components) := by
  constructor
  · intro member
    obtain ⟨path, isPath, rfl⟩ := List.mem_map.mp member
    exact List.mem_map.mpr ⟨path, mem_of_mem_ofList isPath, rfl⟩
  · intro member
    obtain ⟨path, isPath, rfl⟩ := List.mem_map.mp member
    obtain ⟨other, isOther, same⟩ := exists_mem_ofList isPath
    exact List.mem_map.mpr ⟨other, isOther, by rw [FilePath.clean_congr same]⟩

/-- A set of cleaned paths has the steps of the paths when they are cleaned. -/
theorem mem_map_components_cleaned :
    steps ∈ (cleaned paths).paths.map FilePath.components ↔
      steps ∈ paths.map (·.clean.components) := by
  constructor
  · intro member
    obtain ⟨path, isPath, rfl⟩ := List.mem_map.mp member
    obtain ⟨original, isOriginal, rfl⟩ := List.mem_map.mp (mem_of_mem_ofList isPath)
    exact List.mem_map.mpr ⟨original, isOriginal, rfl⟩
  · intro member
    obtain ⟨path, isPath, rfl⟩ := List.mem_map.mp member
    obtain ⟨other, isOther, same⟩ := exists_mem_ofList (List.mem_map_of_mem isPath)
    exact List.mem_map.mpr ⟨other, isOther, same⟩

/-- A set of cleaned paths holds the paths when they are cleaned and no others. -/
theorem mem_cleaned : path ∈ (cleaned paths).paths ↔ path ∈ paths.map FilePath.clean := by
  constructor
  · exact mem_of_mem_ofList
  · intro member
    obtain ⟨original, isOriginal, rfl⟩ := List.mem_map.mp member
    obtain ⟨other, isOther, same⟩ := exists_mem_ofList member
    obtain ⟨second, -, rfl⟩ := List.mem_map.mp (mem_of_mem_ofList isOther)
    rwa [← FilePath.clean_eq_of_components same]

theorem nodup_paths (set : PathSet) : set.paths.Nodup :=
  set.ordered.imp fun before same => before.2 (congrArg FilePath.components same)

/-- Sets of cleaned paths with the same steps are the same. -/
theorem cleaned_eq_of_steps {others : List FilePath}
    (same : ∀ steps, steps ∈ paths.map (·.clean.components) ↔
      steps ∈ others.map (·.clean.components)) : cleaned paths = cleaned others := by
  have sub {some more : List FilePath}
      (less : ∀ steps, steps ∈ some.map (·.clean.components) →
        steps ∈ more.map (·.clean.components)) :
      ∀ path ∈ (cleaned some).paths, path ∈ (cleaned more).paths := by
    intro path member
    have steps := less _ (mem_map_components_cleaned.mp (List.mem_map_of_mem member))
    obtain ⟨other, isOther, sameSteps⟩ := List.mem_map.mp (mem_map_components_cleaned.mpr steps)
    obtain ⟨first, -, rfl⟩ := List.mem_map.mp (mem_of_mem_ofList member)
    obtain ⟨second, -, rfl⟩ := List.mem_map.mp (mem_of_mem_ofList isOther)
    rwa [← FilePath.clean_eq_of_components sameSteps]
  have permuted : (cleaned paths).paths.Perm (cleaned others).paths :=
    (List.perm_ext_iff_of_nodup (nodup_paths _) (nodup_paths _)).mpr fun path =>
      ⟨sub (fun steps => (same steps).mp) path, sub (fun steps => (same steps).mpr) path⟩
  have equal : (cleaned paths).paths = (cleaned others).paths := by
    refine permuted.eq_of_pairwise (fun first second _ _ before after => ?_)
      (cleaned paths).ordered (cleaned others).ordered
    exact absurd (FilePath.stepsLe_antisymm before.1 after.1) before.2
  cases first : cleaned paths
  cases second : cleaned others
  simp_all

end PathSet

end SymbolIndex
