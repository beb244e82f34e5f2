import SymbolIndex.Proofs.FilePath.Ancestors

/-!
# Cleaned paths

A cleaned path is spelled as its steps are, one after the other.  It has at least one
step, and no other cleaned path has the same steps.
-/

namespace SymbolIndex

namespace FilePath

/-- Whether a step that comes after others is read from its own spelling. -/
def Component.IsPlain (step : Component) : Prop :=
  stepOfPiece step.text = some step ∧ '/' ∉ step.text.toList

/-- Whether steps can be read from their spelling one after the other: all are plain,
and the top directory may come before them. -/
def Spelled (steps : List Component) : Prop :=
  ∃ top plain, steps = top ++ plain ∧ (top = [] ∨ top = [.root]) ∧
    ∀ step ∈ plain, step.IsPlain

variable {path base : FilePath} {step : Component} {steps : List Component} {piece : String}

theorem text_of_stepOfPiece (found : stepOfPiece piece = some step) : step.text = piece := by
  unfold stepOfPiece at found
  split at found
  · cases found
  · split at found
    · rename_i up
      cases found
      exact up.symm
    · cases found
      rfl

theorem isPlain_of_stepOfPiece (noSlash : '/' ∉ piece.toList)
    (found : stepOfPiece piece = some step) : step.IsPlain := by
  have text := text_of_stepOfPiece found
  exact ⟨by rw [text, found], by rwa [text]⟩

theorem Component.IsPlain.text_ne (plain : step.IsPlain) :
    step.text ≠ "" ∧ step.text ≠ "." ∧ step ≠ .root ∧ step ≠ .here := by
  obtain ⟨found, noSlash⟩ := plain
  refine ⟨?_, ?_, ?_, ?_⟩
  · intro empty
    rw [empty] at found
    cases found
  · intro here
    rw [here] at found
    cases found
  · rintro rfl
    exact noSlash (by decide)
  · rintro rfl
    cases found

theorem filterMap_stepOfPiece_text (plain : ∀ step ∈ steps, step.IsPlain) :
    (steps.map Component.text).filterMap stepOfPiece = steps := by
  induction steps with
  | nil => rfl
  | cons step steps ih =>
      obtain ⟨first, others⟩ := List.forall_mem_cons.mp plain
      rw [List.map_cons, List.filterMap_cons_some first.1, ih others]

/-! ## The steps of a cleaned path -/

/-- The steps of a path are plain after the first one. -/
theorem components_cases (path : FilePath) :
    ∃ first plain, path.components = first ++ plain ∧
      (first = [] ∨ first = [.root] ∨ first = [.here]) ∧ ∀ step ∈ plain, step.IsPlain := by
  have plainOf {piece : String} (isPiece : piece ∈ path.pieces) {step : Component}
      (found : stepOfPiece piece = some step) : step.IsPlain :=
    isPlain_of_stepOfPiece (slash_not_mem_of_mem_pieces isPiece) found
  by_cases empty : path.text = ""
  · exact ⟨[], [], by simp [components_of_text_empty empty], .inl rfl, by simp⟩
  · obtain ⟨first, rest, split⟩ := List.exists_cons_of_ne_nil path.pieces_ne_nil
    have plainRest : ∀ step ∈ rest.filterMap stepOfPiece, step.IsPlain := by
      intro step member
      obtain ⟨piece, inRest, found⟩ := List.mem_filterMap.mp member
      exact plainOf (by rw [split]; exact List.mem_cons_of_mem first inRest) found
    rw [components_of_pieces split (rest_ne_nil empty split)]
    unfold firstSteps
    split
    · exact ⟨[.root], _, rfl, .inr (.inl rfl), plainRest⟩
    · split
      · exact ⟨[.here], _, rfl, .inr (.inr rfl), plainRest⟩
      · refine ⟨[], _, rfl, .inl rfl, fun step member => ?_⟩
        rcases List.mem_append.mp member with isFirst | inRest
        · exact plainOf (by rw [split]; exact List.mem_cons_self) (Option.mem_toList.mp isFirst)
        · exact plainRest step inRest

theorem Spelled.concat (spelled : Spelled steps) (plain : step.IsPlain) :
    Spelled (steps ++ [step]) := by
  obtain ⟨top, others, rfl, isTop, plainOthers⟩ := spelled
  refine ⟨top, others ++ [step], List.append_assoc .., isTop, fun other member => ?_⟩
  rcases List.mem_append.mp member with early | last
  · exact plainOthers other early
  · exact List.mem_singleton.mp last ▸ plain

theorem Spelled.dropLast (spelled : Spelled steps) : Spelled steps.dropLast := by
  obtain ⟨top, others, rfl, isTop, plain⟩ := spelled
  rcases List.eq_nil_or_concat others with rfl | ⟨before, last, rfl⟩
  · rcases isTop with rfl | rfl
    · exact ⟨[], [], rfl, .inl rfl, by simp⟩
    · exact ⟨[], [], rfl, .inl rfl, by simp⟩
  · refine ⟨top, before, ?_, isTop, fun step member => plain step (by simp [member])⟩
    rw [List.concat_eq_append, ← List.append_assoc, List.dropLast_concat]

theorem spelled_cleanStep {done : List Component} (spelled : Spelled done.reverse)
    (plain : step.IsPlain) : Spelled (cleanStep done step).reverse := by
  have grown : Spelled (step :: done).reverse := by
    rw [List.reverse_cons]
    exact spelled.concat plain
  cases step with
  | root => exact absurd rfl plain.text_ne.2.2.1
  | here => exact spelled
  | name entry => exact grown
  | up =>
      cases done with
      | nil => exact grown
      | cons last before =>
          cases last with
          | root => exact spelled
          | name entry =>
              have shorter := spelled.dropLast
              rwa [List.reverse_cons, List.dropLast_concat] at shorter
          | here => exact grown
          | up => exact grown

theorem spelled_foldl_cleanStep {done : List Component} (spelled : Spelled done.reverse)
    (plain : ∀ step ∈ steps, step.IsPlain) : Spelled (steps.foldl cleanStep done).reverse := by
  induction steps generalizing done with
  | nil => exact spelled
  | cons step steps ih =>
      obtain ⟨first, others⟩ := List.forall_mem_cons.mp plain
      exact ih (spelled_cleanStep spelled first) others

theorem spelled_cleanComponents (path : FilePath) : Spelled path.cleanComponents := by
  obtain ⟨first, plain, steps, isFirst, arePlain⟩ := path.components_cases
  rw [cleanComponents, steps, List.foldl_append]
  refine spelled_foldl_cleanStep ?_ arePlain
  rcases isFirst with rfl | rfl | rfl
  · exact ⟨[], [], rfl, .inl rfl, by simp⟩
  · exact ⟨[.root], [], rfl, .inr rfl, by simp⟩
  · exact ⟨[], [], rfl, .inl rfl, by simp⟩

/-! ## The spelling of steps -/

theorem relative_of_isPlain (plain : step.IsPlain) :
    (FilePath.mk step.text).isAbsolute = false := by
  rw [← Bool.not_eq_true, isAbsolute_iff, pieces_of_not_mem plain.2]
  rintro ⟨others, notEmpty, same⟩
  exact notEmpty (List.cons.inj same).2.symm

/-- A path that does not end with a slash grows by one piece with each plain step. -/
theorem pieces_foldl_join (plain : ∀ step ∈ steps, step.IsPlain)
    (ended : base.pieces.getLast? ≠ some "") :
    (steps.foldl (fun path step => path.join ⟨step.text⟩) base).pieces =
      base.pieces ++ steps.map Component.text := by
  induction steps generalizing base with
  | nil => exact (List.append_nil _).symm
  | cons step steps ih =>
      obtain ⟨first, others⟩ := List.forall_mem_cons.mp plain
      have joined : (base.join ⟨step.text⟩).pieces = base.pieces ++ [step.text] := by
        obtain ⟨start, idle, pieces, areEmpty, grown⟩ :=
          pieces_join base (relative_of_isPlain first)
        obtain rfl : idle = [] := by
          rcases List.eq_nil_or_concat idle with none | ⟨before, last, rfl⟩
          · exact none
          · refine absurd ?_ ended
            rw [pieces, areEmpty last (by simp)]
            simp
        rw [grown, pieces_of_not_mem first.2, pieces, List.append_nil]
      have endedJoined : (base.join ⟨step.text⟩).pieces.getLast? ≠ some "" := by
        rw [joined, List.getLast?_concat]
        exact fun empty => first.text_ne.1 (Option.some.inj empty)
      rw [List.foldl_cons, ih others endedJoined, joined, List.append_assoc]
      rfl

/-- The steps of spelled steps are the steps themselves. -/
theorem components_ofComponents (spelled : Spelled steps) :
    (ofComponents steps).components = steps := by
  obtain ⟨top, plain, rfl, isTop, arePlain⟩ := spelled
  cases plain with
  | nil => rcases isTop with rfl | rfl <;> decide
  | cons step others =>
      obtain ⟨first, plainOthers⟩ := List.forall_mem_cons.mp arePlain
      obtain ⟨notEmpty, notHere, -, -⟩ := first.text_ne
      have read := filterMap_stepOfPiece_text arePlain
      rcases isTop with rfl | rfl
      · have start : (FilePath.mk "").join ⟨step.text⟩ = ⟨step.text⟩ := by
          simp [join, relative_of_isPlain first]
        have pieces : (ofComponents (step :: others)).pieces =
            step.text :: others.map Component.text := by
          have ended : (FilePath.mk step.text).pieces.getLast? ≠ some "" := by
            simpa [pieces_of_not_mem first.2] using notEmpty
          rw [ofComponents, List.foldl_cons, start, pieces_foldl_join plainOthers ended,
            pieces_of_not_mem first.2]
          rfl
        rw [List.nil_append, components_of_pieces pieces fun empty => absurd empty notEmpty,
          firstSteps, if_neg notEmpty, if_neg notHere, first.1,
          filterMap_stepOfPiece_text plainOthers]
        rfl
      · have start : (FilePath.mk "/").join ⟨step.text⟩ = ⟨"/" ++ step.text⟩ := by
          simp [join, relative_of_isPlain first, endsWithSlash]
        have startPieces : (FilePath.mk ("/" ++ step.text)).pieces = ["", step.text] := by
          have alone := pieces_of_not_mem first.2
          have slash : ("/" ++ step.text).toList = [] ++ '/' :: step.text.toList := by
            simp
          rw [pieces_eq] at alone
          rw [pieces_eq, slash, List.splitOn_append_cons_self, List.map_append, alone]
          rfl
        have pieces : (ofComponents (.root :: step :: others)).pieces =
            "" :: step.text :: others.map Component.text := by
          have ended : (FilePath.mk ("/" ++ step.text)).pieces.getLast? ≠ some "" := by
            simpa [startPieces] using notEmpty
          have slash : (FilePath.mk "").join ⟨Component.root.text⟩ = ⟨"/"⟩ := by
            decide
          rw [ofComponents, List.foldl_cons, List.foldl_cons, slash, start,
            pieces_foldl_join plainOthers ended, startPieces]
          rfl
        rw [List.singleton_append, components_of_pieces pieces fun _ => by simp]
        exact congrArg (Component.root :: ·) read

/-! ## Cleaned paths and their steps -/

theorem components_clean (path : FilePath) :
    path.clean.components =
      if path.cleanComponents = [] then [.here] else path.cleanComponents := by
  unfold clean
  split
  case h_1 none =>
    rw [if_pos none]
    decide
  case h_2 some =>
    rw [if_neg some]
    exact components_ofComponents path.spelled_cleanComponents

theorem components_clean_ne_nil (path : FilePath) : path.clean.components ≠ [] := by
  rw [components_clean]
  split
  · exact List.cons_ne_nil _ _
  · assumption

/-- A cleaned path is spelled as its steps are. -/
theorem clean_eq_ofComponents (path : FilePath) :
    path.clean = ofComponents path.clean.components := by
  rw [components_clean]
  unfold clean
  split
  case h_1 none =>
    rw [if_pos none]
    decide
  case h_2 some => rw [if_neg some]

/-- Only the steps of a path count when it is cleaned. -/
theorem clean_congr {other : FilePath} (same : path.components = other.components) :
    path.clean = other.clean := by
  rw [clean, clean, cleanComponents, cleanComponents, same]

/-- Cleaned paths with the same steps are the same. -/
theorem clean_eq_of_components {other : FilePath}
    (same : path.clean.components = other.clean.components) : path.clean = other.clean := by
  rw [clean_eq_ofComponents path, clean_eq_ofComponents other, same]

end FilePath

end SymbolIndex
