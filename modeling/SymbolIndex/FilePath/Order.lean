import SymbolIndex.FilePath

/-!
# The order of paths

Paths are ordered by their steps, and this is a total order on lists of steps.
-/

namespace SymbolIndex

namespace FilePath

theorem Component.le_total (a b : Component) : a.le b || b.le a := by
  cases a <;> cases b <;> simp [Component.le, Component.rank]
  exact String.le_total ..

theorem Component.le_trans {a b c : Component} (ab : a.le b) (bc : b.le c) : a.le c := by
  cases a <;> cases b <;> cases c <;> simp_all [Component.le, Component.rank]
  exact String.le_trans ab bc

theorem Component.le_antisymm {a b : Component} (ab : a.le b) (ba : b.le a) : a = b := by
  cases a <;> cases b <;> simp_all [Component.le, Component.rank]
  exact String.le_antisymm ab ba

theorem stepsLe_total (as bs : List Component) : stepsLe as bs || stepsLe bs as := by
  fun_induction stepsLe as bs with
  | case1 => simp
  | case2 => simp [stepsLe]
  | case3 as a bs ih => simpa [stepsLe] using ih
  | case4 a as b bs differ =>
    have := Component.le_total a b
    simp_all [stepsLe, Ne.symm differ]

theorem stepsLe_antisymm {as bs : List Component} (ab : stepsLe as bs)
    (ba : stepsLe bs as) : as = bs := by
  fun_induction stepsLe as bs with
  | case1 bs => cases bs <;> simp_all [stepsLe]
  | case2 => simp at ab
  | case3 as a bs ih => simp_all [stepsLe]
  | case4 a as b bs differ =>
    simp [stepsLe, Ne.symm differ] at ba
    exact absurd (Component.le_antisymm ab ba) differ

theorem stepsLe_trans {as bs cs : List Component} (ab : stepsLe as bs)
    (bc : stepsLe bs cs) : stepsLe as cs := by
  fun_induction stepsLe as bs generalizing cs with
  | case1 => simp [stepsLe]
  | case2 => simp at ab
  | case3 as a bs ih =>
    cases cs with
    | nil => simp [stepsLe] at bc
    | cons c cs =>
      by_cases same : a = c
      · simp_all [stepsLe]
      · simp_all [stepsLe]
  | case4 a as b bs differ =>
    cases cs with
    | nil => simp [stepsLe] at bc
    | cons c cs =>
      by_cases same : b = c
      · subst same
        simp_all [stepsLe]
      · simp only [stepsLe, same, if_false] at bc
        have firstDiffers : a ≠ c := fun eq => by
          subst eq
          exact differ (Component.le_antisymm ab bc)
        simp only [stepsLe, firstDiffers, if_false]
        exact Component.le_trans ab bc

theorem le_total (a b : FilePath) : a.le b || b.le a :=
  stepsLe_total a.components b.components

theorem le_trans (a b c : FilePath) (ab : a.le b) (bc : b.le c) : a.le c :=
  stepsLe_trans ab bc

/-- One path comes strictly before another. -/
def Before (a b : FilePath) : Prop :=
  stepsLe a.components b.components ∧ a.components ≠ b.components

instance (a b : FilePath) : Decidable (Before a b) :=
  inferInstanceAs (Decidable (_ ∧ _))

theorem Before.trans {a b c : FilePath} (ab : a.Before b) (bc : b.Before c) :
    a.Before c := by
  refine ⟨stepsLe_trans ab.1 bc.1, fun same => bc.2 ?_⟩
  exact stepsLe_antisymm bc.1 (same ▸ ab.1)

end FilePath

/-- A set of paths in their order, each list of steps once. -/
structure PathSet where
  paths : List FilePath
  ordered : paths.Pairwise FilePath.Before := by simp
  deriving DecidableEq

namespace PathSet

def empty : PathSet := ⟨[], by simp⟩

/-- Paths without those that have the same steps as the path before them, which
for the first of them is `last`. -/
def dropRepeats (last : FilePath) : List FilePath → List FilePath
  | [] => []
  | path :: rest =>
    if last.components = path.components then dropRepeats last rest
    else path :: dropRepeats path rest

theorem pairwise_dropRepeats {last : FilePath} {paths : List FilePath}
    (ordered : (last :: paths).Pairwise fun a b => a.le b) :
    (last :: dropRepeats last paths).Pairwise FilePath.Before := by
  induction paths generalizing last with
  | nil => simp [dropRepeats]
  | cons path rest ih =>
    obtain ⟨lastLe, restOrdered⟩ := List.pairwise_cons.1 ordered
    unfold dropRepeats
    split
    · refine ih (List.pairwise_cons.2 ⟨fun other mem => ?_, ?_⟩)
      · exact lastLe other (List.mem_cons_of_mem path mem)
      · exact (List.pairwise_cons.1 restOrdered).2
    · rename_i differ
      have strict := ih restOrdered
      have lastBefore : last.Before path := ⟨lastLe path List.mem_cons_self, differ⟩
      refine List.pairwise_cons.2 ⟨fun other mem => ?_, strict⟩
      rcases List.mem_cons.1 mem with rfl | inRest
      · exact lastBefore
      · exact lastBefore.trans ((List.pairwise_cons.1 strict).1 other inRest)

def sort (paths : List FilePath) : List FilePath :=
  paths.mergeSort FilePath.le

theorem pairwise_sort (paths : List FilePath) :
    (sort paths).Pairwise fun a b => a.le b :=
  List.pairwise_mergeSort FilePath.le_trans FilePath.le_total paths

/-- The set of the paths in a list.  Of paths with the same steps the first
spelling stays. -/
def ofList (paths : List FilePath) : PathSet :=
  match sorted : sort paths with
  | [] => empty
  | first :: rest =>
    ⟨first :: dropRepeats first rest, pairwise_dropRepeats (sorted ▸ pairwise_sort paths)⟩

/-- Nothing is dropped from paths in strictly increasing order. -/
theorem dropRepeats_eq_self {last : FilePath} {paths : List FilePath}
    (ordered : (last :: paths).Pairwise FilePath.Before) : dropRepeats last paths = paths := by
  induction paths generalizing last with
  | nil => rfl
  | cons path rest ih =>
    obtain ⟨lastBefore, restOrdered⟩ := List.pairwise_cons.1 ordered
    have differ := (lastBefore path List.mem_cons_self).2
    simp [dropRepeats, differ, ih restOrdered]

theorem sort_eq_self {paths : List FilePath} (ordered : paths.Pairwise FilePath.Before) :
    sort paths = paths :=
  List.mergeSort_of_pairwise (ordered.imp fun before => before.1)

/-- The set of the paths of a set is the set itself. -/
@[simp] theorem ofList_paths (set : PathSet) : ofList set.paths = set := by
  obtain ⟨paths, ordered⟩ := set
  unfold ofList
  split
  · rename_i sorted
    simp_all [sort_eq_self ordered, empty]
  · rename_i first rest sorted
    rw [sort_eq_self ordered] at sorted
    subst sorted
    simp [dropRepeats_eq_self ordered]

def cleaned (paths : List FilePath) : PathSet :=
  ofList (paths.map FilePath.clean)

end PathSet

end SymbolIndex
