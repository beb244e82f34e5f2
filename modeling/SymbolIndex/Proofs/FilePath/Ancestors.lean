import SymbolIndex.Proofs.FilePath.Pieces
import Mathlib.Data.List.TakeWhile

/-!
# The directories above a path

The directory that holds what a path names has all steps of the path but the last one.
So the paths that are found by going up from a path, one directory after the other, have
the steps that the path starts with.
-/

namespace SymbolIndex

namespace FilePath

variable {path parent : FilePath} {first piece : String} {rest : List String}

/-! ## The steps of pieces -/

/-- The steps that the first piece of a path stands for. -/
def firstSteps (piece : String) : List Component :=
  if piece = "" then [.root]
  else if piece = "." then [.here]
  else (stepOfPiece piece).toList

theorem length_firstSteps (piece : String) : (firstSteps piece).length ≤ 1 := by
  unfold firstSteps
  split
  · exact Nat.le_refl _
  · split
    · exact Nat.le_refl _
    · cases stepOfPiece piece <;> simp

theorem pieces_of_text_empty (empty : path.text = "") : path.pieces = [""] := by
  simp [pieces_eq, empty]

theorem rest_ne_nil (notEmpty : path.text ≠ "") (pieces : path.pieces = first :: rest)
    (empty : first = "") : rest ≠ [] := by
  rintro rfl
  rw [← path.intercalate_pieces, pieces, String.intercalate_singleton] at notEmpty
  exact notEmpty empty

/-- The steps of a path are those of its first piece and of the others. -/
theorem components_of_pieces (pieces : path.pieces = first :: rest)
    (others : first = "" → rest ≠ []) :
    path.components = firstSteps first ++ rest.filterMap stepOfPiece := by
  unfold components
  rw [pieces]
  by_cases empty : first = ""
  · have text : path.text ≠ "" := fun none =>
      others empty (List.cons.inj (pieces.symm.trans (pieces_of_text_empty none))).2
    simp [empty, text, firstSteps]
  · by_cases here : first = "."
    · simp [here, firstSteps]
    · split
      case h_1 same => exact absurd (List.cons.inj same).1 empty
      case h_2 same => exact absurd (List.cons.inj same).1 here
      case h_3 =>
        rw [firstSteps, if_neg empty, if_neg here, List.filterMap_cons]
        cases stepOfPiece first <;> rfl

theorem components_of_text_empty (empty : path.text = "") : path.components = [] := by
  have pieces := pieces_of_text_empty empty
  unfold components
  rw [pieces]
  simp [empty]

theorem filterMap_stepOfPiece_idle {pieces : List String}
    (idle : ∀ piece ∈ pieces, isIdlePiece piece = true) : pieces.filterMap stepOfPiece = [] := by
  refine List.filterMap_eq_nil_iff.mpr fun piece member => ?_
  have isIdle := idle piece member
  simp only [isIdlePiece, Bool.or_eq_true, decide_eq_true_eq] at isIdle
  simp [stepOfPiece, isIdle]

theorem exists_stepOfPiece (notIdle : isIdlePiece piece = false) :
    ∃ step, stepOfPiece piece = some step := by
  simp only [isIdlePiece, Bool.or_eq_false_iff, decide_eq_false_iff_not] at notIdle
  unfold stepOfPiece
  rw [if_neg (by simp [notIdle])]
  split <;> exact ⟨_, rfl⟩

/-- Idle pieces at the end of a path stand for no step. -/
theorem filterMap_stepOfPiece_dropWhile (reversed : List String) :
    (reversed.dropWhile isIdlePiece).reverse.filterMap stepOfPiece =
      reversed.reverse.filterMap stepOfPiece := by
  have idle : (reversed.takeWhile isIdlePiece).reverse.filterMap stepOfPiece = [] :=
    filterMap_stepOfPiece_idle fun piece member =>
      List.mem_takeWhile_imp (List.mem_reverse.mp member)
  conv_rhs => rw [← List.takeWhile_append_dropWhile (p := isIdlePiece) (l := reversed)]
  rw [List.reverse_append, List.filterMap_append, idle, List.append_nil]

theorem components_of_slash : (FilePath.mk "/").components = [.root] := by
  decide

/-- The first piece of a path with others, as a path of its own. -/
theorem components_of_firstPiece (plain : '/' ∉ first.toList) :
    (FilePath.mk (if first = "" then "/" else first)).components = firstSteps first := by
  by_cases empty : first = ""
  · rw [if_pos empty, components_of_slash, empty]
    rfl
  · rw [if_neg empty, components_of_pieces (pieces_of_not_mem plain) fun none => absurd none empty]
    exact List.append_nil _

/-- The steps of a path of which only some of the pieces after the first one are kept. -/
theorem components_of_fewer {fewer : List String} (pieces : path.pieces = first :: rest)
    (several : fewer ≠ []) (kept : ∀ piece ∈ fewer, piece ∈ rest) :
    (FilePath.mk ("/".intercalate (first :: fewer))).components =
      firstSteps first ++ fewer.filterMap stepOfPiece := by
  have plain : ∀ piece ∈ first :: fewer, '/' ∉ piece.toList := by
    intro piece member
    have isPiece : piece ∈ path.pieces := by
      rw [pieces]
      exact List.cons_subset_cons first kept member
    exact slash_not_mem_of_mem_pieces isPiece
  exact components_of_pieces (pieces_intercalate (by simp) plain) fun _ => several

/-! ## The path above -/

/-- The directory that holds what a path names has all steps but the last one. -/
theorem components_parent? (found : path.parent? = some parent) :
    parent.components = path.components.dropLast := by
  unfold parent? at found
  split at found
  case h_1 => cases found
  case h_2 => cases found
  case h_3 notEmpty notTop =>
    split at found
    case h_1 => cases found
    case h_2 first rest pieces =>
      have spelled : path.text ≠ "" := fun empty => notEmpty (components_of_text_empty empty)
      have steps := components_of_pieces pieces (rest_ne_nil spelled pieces)
      have plain : '/' ∉ first.toList :=
        slash_not_mem_of_mem_pieces (by rw [pieces]; exact List.mem_cons_self)
      have allSteps := filterMap_stepOfPiece_dropWhile rest.reverse
      rw [List.reverse_reverse] at allSteps
      rw [← allSteps] at steps
      split at found
      case h_1 noStep =>
        -- only the first piece stands for a step
        cases found
        have single := length_firstSteps first
        rw [noStep, List.reverse_nil, List.filterMap_nil, List.append_nil] at steps
        rw [components_of_text_empty rfl, steps]
        cases firsts : firstSteps first with
        | nil => rfl
        | cons step more =>
            rw [firsts, List.length_cons] at single
            rw [List.eq_nil_of_length_eq_zero (Nat.le_zero.mp (Nat.le_of_succ_le_succ single))]
            rfl
      case h_2 last before dropped =>
        have lastNotIdle : isIdlePiece last = false := by
          have notIdle := List.head?_dropWhile_not isIdlePiece rest.reverse
          rw [dropped] at notIdle
          simpa using notIdle
        obtain ⟨step, isStep⟩ := exists_stepOfPiece lastNotIdle
        have steps : path.components.dropLast =
            firstSteps first ++ before.reverse.filterMap stepOfPiece := by
          rw [steps, dropped, List.reverse_cons, List.filterMap_append,
            List.filterMap_cons_some isStep, ← List.append_assoc]
          exact List.dropLast_concat
        rw [steps, ← filterMap_stepOfPiece_dropWhile before]
        split at found
        case h_1 noOther =>
          cases found
          rw [noOther, components_of_firstPiece plain]
          exact (List.append_nil _).symm
        case h_2 kept others =>
          cases found
          have several : (before.dropWhile isIdlePiece).reverse ≠ [] := by
            simpa using others
          have inRest : rest.reverse.dropWhile isIdlePiece ⊆ rest.reverse :=
            (List.dropWhile_suffix isIdlePiece).subset
          rw [dropped] at inRest
          refine components_of_fewer pieces several fun piece member => ?_
          have inBefore := (List.dropWhile_suffix isIdlePiece).subset (List.mem_reverse.mp member)
          exact List.mem_reverse.mp (inRest (List.mem_cons_of_mem last inBefore))

theorem exists_parent? (several : 1 < path.components.length) :
    ∃ parent, path.parent? = some parent := by
  unfold parent?
  split
  case h_1 none => simp [none] at several
  case h_2 top => simp [top] at several
  case h_3 =>
    split
    case h_1 noPieces => exact absurd noPieces path.pieces_ne_nil
    case h_2 =>
      split
      case h_1 => exact ⟨_, rfl⟩
      case h_2 => split <;> exact ⟨_, rfl⟩

/-! ## All paths above -/

theorem components_prefix_of_mem_ancestorsWithin {fuel : Nat} {above : FilePath}
    (member : above ∈ ancestorsWithin fuel path) : above.components <+: path.components := by
  induction fuel generalizing path with
  | zero =>
      obtain rfl := List.mem_singleton.mp member
      exact List.prefix_rfl
  | succ fuel ih =>
      rw [ancestorsWithin] at member
      split at member
      case h_1 parent found =>
        rcases List.mem_cons.mp member with rfl | member
        · exact List.prefix_rfl
        · have steps := ih member
          rw [components_parent? found] at steps
          exact steps.trans (List.dropLast_prefix _)
      case h_2 =>
        obtain rfl := List.mem_singleton.mp member
        exact List.prefix_rfl

theorem exists_mem_ancestorsWithin {fuel : Nat} {steps : List Component} (spelled : steps ≠ [])
    (areFirst : steps <+: path.components)
    (enough : path.components.length ≤ fuel + steps.length) :
    ∃ above ∈ ancestorsWithin fuel path, above.components = steps := by
  induction fuel generalizing path with
  | zero =>
      rw [Nat.zero_add] at enough
      exact ⟨path, List.mem_singleton_self path, (areFirst.eq_of_length_le enough).symm⟩
  | succ fuel ih =>
      by_cases all : steps = path.components
      · refine ⟨path, ?_, all.symm⟩
        rw [ancestorsWithin]
        split <;> exact List.mem_cons_self
      · have shorter : steps.length < path.components.length :=
          Nat.lt_of_le_of_ne areFirst.length_le fun same => all (areFirst.eq_of_length same)
        have positive := List.length_pos_iff.mpr spelled
        obtain ⟨parent, found⟩ := exists_parent? (Nat.lt_of_le_of_lt positive shorter)
        have stepsParent := components_parent? found
        have lessSteps : parent.components.length = path.components.length - 1 := by
          rw [stepsParent, List.length_dropLast]
        have areFirstParent : steps <+: parent.components := by
          rw [stepsParent]
          exact List.prefix_of_prefix_length_le areFirst (List.dropLast_prefix _)
            (by rw [List.length_dropLast]; omega)
        obtain ⟨above, member, same⟩ := ih areFirstParent (by omega)
        refine ⟨above, ?_, same⟩
        rw [ancestorsWithin, found]
        exact List.mem_cons_of_mem path member

/-- A path has at most as many steps as its spelling has characters. -/
theorem length_components_le (path : FilePath) :
    path.components.length ≤ path.text.length + 1 := by
  have pieces : path.pieces.length ≤ path.text.length + 1 := by
    rw [FilePath.pieces, List.length_map, ← String.length_toList]
    exact Text.length_splitOnChar_le '/' path.text.toList
  by_cases empty : path.text = ""
  · simp [components_of_text_empty empty]
  · obtain ⟨first, rest, split⟩ := List.exists_cons_of_ne_nil path.pieces_ne_nil
    have firsts := length_firstSteps first
    have others := List.length_filterMap_le stepOfPiece rest
    rw [split, List.length_cons] at pieces
    rw [components_of_pieces split (rest_ne_nil empty split), List.length_append]
    omega

/-- The paths above a path, with itself, have the steps that it starts with. -/
theorem exists_mem_ancestors_iff {steps : List Component} (spelled : steps ≠ []) :
    (∃ above ∈ path.ancestors, above.components = steps) ↔ steps <+: path.components := by
  constructor
  · rintro ⟨above, member, rfl⟩
    exact components_prefix_of_mem_ancestorsWithin member
  · intro areFirst
    refine exists_mem_ancestorsWithin spelled areFirst ?_
    have positive := List.length_pos_iff.mpr spelled
    have all := path.length_components_le
    omega

end FilePath

end SymbolIndex
