import SymbolIndex.Proofs.FilePath.Pieces

/-!
# Places that paths name

Without symbolic links the place that a path leads to can be told from its
spelling and the directory that it starts from: every piece goes to an entry,
stays, or goes up.  The places that a path passes on its way are those of the
first pieces of its spelling.  A path that never goes above its start leads to a
place below the start, and so does every part of it.
-/

namespace SymbolIndex

namespace FilePath

/-- The place after one more piece of a path. -/
def stepPlace (place : List String) (piece : String) : List String :=
  if piece = "" || piece = "." then place
  else if piece = ".." then place.dropLast
  else place ++ [piece]

/-- The place that a path starts from when it is read from `start`. -/
def origin (start : List String) (path : FilePath) : List String :=
  if path.isAbsolute then [] else start

/-- The place that a path read from `start` leads to. -/
def placeFrom (start : List String) (path : FilePath) : List String :=
  path.pieces.foldl stepPlace (path.origin start)

/-- Whether a path read from `start` passes a place, its first and last ones
included. -/
def Passes (start : List String) (path : FilePath) (place : List String) : Prop :=
  ∃ first, first <+: path.pieces ∧ first.foldl stepPlace (path.origin start) = place

/-- Whether a path followed from anywhere stays at or below its start all the
way. -/
def StaysInside (path : FilePath) : Prop :=
  path.isAbsolute = false ∧ Component.up ∉ path.cleanComponents

instance (path : FilePath) : Decidable path.StaysInside :=
  inferInstanceAs (Decidable (_ ∧ _))

/-- The names in the shortest spelling of a path. -/
def cleanNames (path : FilePath) : List String :=
  path.cleanComponents.filterMap fun
    | .name entry => some entry
    | _ => none

/-- Whether a text can be the name of an entry. -/
def IsName (name : String) : Prop :=
  name ≠ "" ∧ name ≠ "." ∧ name ≠ ".." ∧ '/' ∉ name.toList

instance (name : String) : Decidable (IsName name) :=
  inferInstanceAs (Decidable (_ ∧ _))

section Places

variable {start place : List String} {base path parent : FilePath}

theorem stepPlace_empty (place : List String) : stepPlace place "" = place := by
  simp [stepPlace]

theorem foldl_stepPlace_idle {pieces : List String} (idle : ∀ piece ∈ pieces, piece = "") :
    pieces.foldl stepPlace place = place := by
  induction pieces with
  | nil => rfl
  | cons piece pieces ih =>
      obtain rfl := idle piece (by simp)
      rw [List.foldl_cons, stepPlace_empty]
      exact ih fun other member => idle other (by simp [member])

theorem passes_self : path.Passes start (path.placeFrom start) :=
  ⟨path.pieces, List.prefix_rfl, rfl⟩

theorem placeFrom_join (base : FilePath) (relative : path.isAbsolute = false) :
    (base.join path).placeFrom start = path.pieces.foldl stepPlace (base.placeFrom start) := by
  obtain ⟨before, idle, basePieces, idleEmpty, joined⟩ := pieces_join base relative
  rw [placeFrom, joined, placeFrom, basePieces, List.foldl_append, List.foldl_append,
    foldl_stepPlace_idle idleEmpty, origin, origin, isAbsolute_join base relative]

/-- A path followed by a relative one passes what the first one passes, and then
what the second one passes from there. -/
theorem passes_join (relative : path.isAbsolute = false)
    (passes : (base.join path).Passes start place) :
    base.Passes start place ∨
      ∃ first, first <+: path.pieces ∧ place = first.foldl stepPlace (base.placeFrom start) := by
  obtain ⟨first, isFirst, rfl⟩ := passes
  obtain ⟨before, idle, basePieces, idleEmpty, joined⟩ := pieces_join base relative
  have sameOrigin : (base.join path).origin start = base.origin start := by
    rw [origin, origin, isAbsolute_join base relative]
  rw [sameOrigin]
  rw [joined] at isFirst
  rcases List.prefix_or_prefix_of_prefix isFirst (List.prefix_append before path.pieces) with
    early | ⟨later, rfl⟩
  · exact .inl ⟨first, early.trans (basePieces ▸ List.prefix_append ..), rfl⟩
  · refine .inr ⟨later, (List.prefix_append_right_inj before).mp isFirst, ?_⟩
    rw [List.foldl_append, placeFrom, basePieces, List.foldl_append,
      foldl_stepPlace_idle idleEmpty]

/-- The directory above a path lies on the path's way. -/
theorem passes_of_parent? (found : path.parent? = some parent) (spelled : parent.text ≠ "")
    (passes : parent.Passes start place) : path.Passes start place := by
  obtain ⟨first, isFirst, rfl⟩ := passes
  rcases parent?_eq_some found with empty | ⟨top, absolute⟩ | ⟨firstPieces, sameAbsolute⟩
  · exact absurd empty spelled
  · -- the top directory is where an absolute path starts
    have piecesTop : parent.pieces = ["", ""] := by
      have equal : parent = ⟨"/"⟩ := by
        cases parent
        simp_all
      rw [equal]
      decide
    have absoluteParent : parent.isAbsolute = true :=
      isAbsolute_iff.mpr ⟨[""], by simp, piecesTop⟩
    have idle : ∀ piece ∈ first, piece = "" := by
      intro piece member
      simpa [piecesTop] using isFirst.subset member
    refine ⟨[], List.nil_prefix, ?_⟩
    rw [foldl_stepPlace_idle idle]
    simp [origin, absolute, absoluteParent]
  · refine ⟨first, isFirst.trans firstPieces, ?_⟩
    rw [origin, origin, sameAbsolute]

theorem ancestorsWithin_empty (fuel : Nat) : ancestorsWithin fuel ⟨""⟩ = [⟨""⟩] := by
  cases fuel <;> rfl

theorem passes_of_mem_ancestorsWithin {fuel : Nat} {above : FilePath}
    (member : above ∈ ancestorsWithin fuel path) (spelled : above.text ≠ "") :
    path.Passes start (above.placeFrom start) := by
  induction fuel generalizing path with
  | zero =>
      obtain rfl := List.mem_singleton.mp member
      exact passes_self
  | succ fuel ih =>
      rw [ancestorsWithin] at member
      split at member
      case h_1 parent found =>
        rcases List.mem_cons.mp member with rfl | member
        · exact passes_self
        · by_cases empty : parent.text = ""
          · obtain rfl : parent = ⟨""⟩ := by
              cases parent
              simp_all
            rw [ancestorsWithin_empty] at member
            exact absurd (congrArg text (List.mem_singleton.mp member)) spelled
          · exact passes_of_parent? found empty (ih member)
      case h_2 =>
        obtain rfl := List.mem_singleton.mp member
        exact passes_self

/-- The directory of a path and all directories above it lie on the path's way,
where the directory of a path of one step is the one it starts from. -/
theorem passes_of_mem_ancestors_directory {above : FilePath}
    (member : above ∈ path.directory.ancestors) (spelled : above.text ≠ "")
    (named : above.text ≠ ".") : path.Passes start (above.placeFrom start) := by
  have ofHere : above ∉ (FilePath.mk ".").ancestors := by
    have here : (FilePath.mk ".").ancestors = [⟨"."⟩, ⟨""⟩] := by decide
    rw [here]
    cases above
    simp_all
  unfold directory at member
  split at member
  case h_1 parent found =>
    split at member
    · exact absurd member ofHere
    · rename_i parentSpelled
      exact passes_of_parent? found parentSpelled (passes_of_mem_ancestorsWithin member spelled)
  case h_2 => exact absurd member ofHere

end Places

section Inside

variable {start place : List String} {path : FilePath}

/-- A step up that is not cancelled at once is never cancelled. -/
theorem up_mem_foldl_cleanStep {steps done : List Component} (up : Component.up ∈ done) :
    Component.up ∈ steps.foldl cleanStep done := by
  induction steps generalizing done with
  | nil => exact up
  | cons step steps ih =>
      apply ih
      cases step with
      | root => exact List.mem_cons_of_mem _ up
      | here => exact up
      | name entry => exact List.mem_cons_of_mem _ up
      | up =>
          cases done with
          | nil => cases up
          | cons last before => cases last <;> simp_all [cleanStep]

/-- Of a relative path only the pieces count for its shortest spelling. -/
theorem cleanComponents_of_relative (relative : path.isAbsolute = false) :
    path.cleanComponents =
      ((path.pieces.filterMap stepOfPiece).foldl cleanStep []).reverse := by
  unfold cleanComponents components
  split
  case h_1 rest pieces =>
    have single : rest = [] := by
      by_contra others
      have absolute := isAbsolute_iff.mpr ⟨rest, others, pieces⟩
      simp [relative] at absolute
    subst single
    have empty : path.text = "" := by
      rw [← path.intercalate_pieces, pieces, String.intercalate_singleton]
    simp [empty, pieces, stepOfPiece]
  case h_2 rest pieces => simp [pieces, stepOfPiece, cleanStep]
  case h_3 => rfl

/-- The pieces of a path that stays inside lead through places below the one
that they start from. -/
theorem foldl_stepPlace_of_inside {pieces names : List String}
    (inside : Component.up ∉ (pieces.filterMap stepOfPiece).foldl cleanStep
      (names.reverse.map .name)) :
    ∃ all : List String,
      (pieces.filterMap stepOfPiece).foldl cleanStep (names.reverse.map .name) =
        all.reverse.map .name ∧
      pieces.foldl stepPlace (place ++ names) = place ++ all := by
  induction pieces generalizing names with
  | nil => exact ⟨names, rfl, rfl⟩
  | cons piece pieces ih =>
      by_cases idle : piece = "" ∨ piece = "."
      · have noStep : stepOfPiece piece = none := by simp [stepOfPiece, idle]
        have stays : stepPlace (place ++ names) piece = place ++ names := by
          simp [stepPlace, idle]
        rw [List.filterMap_cons_none noStep] at inside ⊢
        rw [List.foldl_cons, stays]
        exact ih inside
      by_cases up : piece = ".."
      · have stepUp : stepOfPiece piece = some .up := by simp [stepOfPiece, up]
        rw [List.filterMap_cons_some stepUp, List.foldl_cons] at inside ⊢
        rcases List.eq_nil_or_concat names with rfl | ⟨before, last, rfl⟩
        · exact absurd (up_mem_foldl_cleanStep List.mem_cons_self) inside
        · have cancelled : cleanStep ((before.concat last).reverse.map .name) .up =
              before.reverse.map .name := by
            simp [cleanStep]
          have above : stepPlace (place ++ before.concat last) piece = place ++ before := by
            simp [stepPlace, up, ← List.append_assoc]
          rw [cancelled] at inside ⊢
          rw [List.foldl_cons, above]
          exact ih inside
      · have stepName : stepOfPiece piece = some (.name piece) := by
          simp [stepOfPiece, idle, up]
        have grown : cleanStep (names.reverse.map .name) (.name piece) =
            (names ++ [piece]).reverse.map .name := by
          simp [cleanStep]
        have below : stepPlace (place ++ names) piece = place ++ (names ++ [piece]) := by
          simp [stepPlace, idle, up]
        rw [List.filterMap_cons_some stepName, List.foldl_cons, grown] at inside ⊢
        rw [List.foldl_cons, below]
        exact ih inside

theorem foldl_stepPlace_of_staysInside (inside : path.StaysInside) :
    path.pieces.foldl stepPlace place = place ++ path.cleanNames := by
  obtain ⟨relative, noUp⟩ := inside
  have clean := cleanComponents_of_relative relative
  rw [clean, List.mem_reverse] at noUp
  obtain ⟨all, steps, places⟩ := @foldl_stepPlace_of_inside place _ [] noUp
  rw [List.append_nil] at places
  rw [places, cleanNames, clean]
  simp only [List.reverse_nil, List.map_nil] at steps
  simp [steps, List.filterMap_map]

/-- Every part of a path that stays inside does so as well. -/
theorem exists_foldl_stepPlace_eq (inside : path.StaysInside) {first : List String}
    (isFirst : first <+: path.pieces) (place : List String) :
    ∃ below, first.foldl stepPlace place = place ++ below := by
  obtain ⟨relative, noUp⟩ := inside
  obtain ⟨others, pieces⟩ := isFirst
  rw [cleanComponents_of_relative relative, List.mem_reverse, ← pieces, List.filterMap_append,
    List.foldl_append] at noUp
  obtain ⟨all, -, places⟩ := @foldl_stepPlace_of_inside place _ []
    (fun up => noUp (up_mem_foldl_cleanStep up))
  rw [List.append_nil] at places
  exact ⟨all, places⟩

theorem staysInside_of_isName {name : String} (named : IsName name) :
    (FilePath.mk name).StaysInside ∧ (FilePath.mk name).cleanNames = [name] := by
  obtain ⟨notEmpty, notHere, notUp, plain⟩ := named
  have pieces := pieces_of_not_mem plain
  have relative : (FilePath.mk name).isAbsolute = false := by
    rw [← Bool.not_eq_true, isAbsolute_iff, pieces]
    simp [notEmpty]
  have clean : (FilePath.mk name).cleanComponents = [.name name] := by
    rw [cleanComponents_of_relative relative, pieces]
    simp [stepOfPiece, notEmpty, notHere, notUp, cleanStep]
  exact ⟨⟨relative, by simp [clean]⟩, by simp [cleanNames, clean]⟩

end Inside

end FilePath

end SymbolIndex
