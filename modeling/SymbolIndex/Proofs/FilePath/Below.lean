import SymbolIndex.FilePath.Order
import SymbolIndex.Proofs.FilePath.Ancestors
import SymbolIndex.Proofs.FilePath.Places

/-!
# Paths below a directory

The paths that a walk through a directory spells add names to the path of the directory.
A name adds one step, so different names give paths that are not only spelled differently
but stand for different steps, and one of them comes strictly before the other.
-/

namespace SymbolIndex

namespace FilePath

variable {base : FilePath} {names others : List String}

/-- The path of what names lead to from a directory. -/
def below (base : FilePath) (names : List String) : FilePath :=
  names.foldl child base

theorem stepOfPiece_of_isName {name : String} (isName : IsName name) :
    stepOfPiece name = some (.name name) := by
  simp [stepOfPiece, isName.1, isName.2.1, isName.2.2.1]

/-- A name adds a step to the path of a directory, however it is spelled. -/
theorem components_child (base : FilePath) {name : String} (isName : IsName name) :
    (base.child name).components = base.components ++ [.name name] := by
  have relative := (staysInside_of_isName isName).1.1
  have alone := pieces_of_not_mem isName.2.2.2
  have step := stepOfPiece_of_isName isName
  by_cases empty : base.text = ""
  · have same : base.child name = ⟨name⟩ := by simp [child, join, relative, empty]
    rw [same, components_of_text_empty empty,
      components_of_pieces alone fun noName => absurd noName isName.1, firstSteps,
      if_neg isName.1, if_neg isName.2.1, step]
    rfl
  obtain ⟨start, idle, pieces, idleEmpty, joined⟩ := pieces_join base relative
  rw [alone] at joined
  cases start with
  | nil =>
      -- a path of slashes is absolute, and stays so when a name is added
      obtain ⟨first, rest, split⟩ := List.exists_cons_of_ne_nil base.pieces_ne_nil
      rw [List.nil_append, split] at pieces
      have isEmpty : first = "" := idleEmpty first (by simp [← pieces])
      have absolute : base.isAbsolute = true :=
        isAbsolute_iff.mpr ⟨rest, rest_ne_nil empty split isEmpty, by rw [split, isEmpty]⟩
      rw [← isAbsolute_join base relative, isAbsolute_iff, joined] at absolute
      obtain ⟨others, several, same⟩ := absolute
      exact absurd (List.cons.inj same).2.symm several
  | cons first rest =>
      have idleSteps : idle.filterMap stepOfPiece = [] :=
        filterMap_stepOfPiece_idle fun piece member => by simp [isIdlePiece, idleEmpty piece member]
      rw [child, components_of_pieces joined (by simp),
        components_of_pieces pieces (rest_ne_nil empty pieces)]
      simp [idleSteps, step]

theorem components_below (base : FilePath) (areNames : ∀ name ∈ names, IsName name) :
    (base.below names).components = base.components ++ names.map .name := by
  induction names generalizing base with
  | nil => simp [below]
  | cons name names ih =>
      obtain ⟨isName, areNames⟩ := List.forall_mem_cons.mp areNames
      have rest := ih (base.child name) areNames
      rw [components_child base isName, List.append_assoc] at rest
      exact rest

/-- Different names lead to different steps. -/
theorem eq_of_components_below (areNames : ∀ name ∈ names, IsName name)
    (othersAreNames : ∀ name ∈ others, IsName name)
    (same : (base.below names).components = (base.below others).components) : names = others := by
  rw [components_below base areNames, components_below base othersAreNames,
    List.append_cancel_left_eq] at same
  exact List.map_injective_iff.mpr (fun _ _ => Component.name.inj) same

end FilePath

end SymbolIndex
