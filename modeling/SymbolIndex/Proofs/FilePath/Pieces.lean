import SymbolIndex.FilePath
import Mathlib.Data.List.Basic
import Mathlib.Data.String.Basic

/-!
# The pieces of a path

A path is the texts between its slashes.  A path that is followed by a relative
one has the pieces of both, and the directory above a path has the first of its
pieces, so that both can be followed piece by piece.
-/

namespace SymbolIndex

namespace Text

theorem splitOnChar_eq_splitOn (separator : Char) (cs : List Char) :
    splitOnChar separator cs = cs.splitOn separator := by
  induction cs with
  | nil => rfl
  | cons c cs ih =>
      rw [splitOnChar, List.splitOn_cons_eq_if_modifyHead, ih]
      by_cases ends : c = separator
      · simp [ends]
      · have nonempty := List.splitOn_ne_nil separator cs
        cases pieces : cs.splitOn separator with
        | nil => exact absurd pieces nonempty
        | cons piece others => simp [ends]

theorem splitOnChar_ne_nil (separator : Char) (cs : List Char) :
    splitOnChar separator cs ≠ [] := by
  rw [splitOnChar_eq_splitOn]
  exact List.splitOn_ne_nil separator cs

theorem splitOnChar_append_separator (separator : Char) (first rest : List Char) :
    splitOnChar separator (first ++ separator :: rest) =
      splitOnChar separator first ++ splitOnChar separator rest := by
  simp only [splitOnChar_eq_splitOn, List.splitOn_append_cons_self]

theorem splitOnChar_intercalate {separator : Char} {pieces : List (List Char)}
    (nonempty : pieces ≠ []) (plain : ∀ piece ∈ pieces, separator ∉ piece) :
    splitOnChar separator ([separator].intercalate pieces) = pieces := by
  rw [splitOnChar_eq_splitOn, List.splitOn_intercalate separator plain nonempty]

theorem length_splitOnChar_le (separator : Char) (cs : List Char) :
    (splitOnChar separator cs).length ≤ cs.length + 1 := by
  fun_induction splitOnChar separator cs with
  | case1 => simp
  | case2 rest ih => simpa using ih
  | case3 c rest differs first others split ih =>
      simp only [split, List.length_cons] at ih ⊢
      omega
  | case4 c rest differs split ih => simp

theorem not_mem_of_mem_splitOnChar {separator : Char} {cs piece : List Char}
    (member : piece ∈ splitOnChar separator cs) : separator ∉ piece := by
  fun_induction splitOnChar separator cs generalizing piece with
  | case1 => simp_all
  | case2 rest ih =>
      rcases List.mem_cons.mp member with rfl | member
      · simp
      · exact ih member
  | case3 c rest differs first others split ih =>
      rcases List.mem_cons.mp member with rfl | member
      · have clean : separator ∉ first := ih (by simp [split])
        simp [clean, Ne.symm differs]
      · exact ih (by simp [split, member])
  | case4 c rest differs split ih =>
      obtain rfl : piece = [c] := by simpa using member
      simpa using Ne.symm differs

end Text

namespace FilePath

section Pieces

variable {base path parent : FilePath}

theorem pieces_eq (path : FilePath) :
    path.pieces = (path.text.toList.splitOn '/').map String.ofList := by
  rw [pieces, Text.splitOnChar_eq_splitOn]

theorem pieces_ne_nil (path : FilePath) : path.pieces ≠ [] := by
  simp [pieces_eq]

theorem slash_not_mem_of_mem_pieces {piece : String} (member : piece ∈ path.pieces) :
    '/' ∉ piece.toList := by
  obtain ⟨cs, split, rfl⟩ := List.mem_map.mp member
  simpa using Text.not_mem_of_mem_splitOnChar split

/-- A name without slashes is a path of one piece. -/
theorem pieces_of_not_mem {name : String} (plain : '/' ∉ name.toList) :
    (FilePath.mk name).pieces = [name] := by
  simp [pieces_eq, List.splitOn_eq_singleton plain]

theorem pieces_intercalate {pieces : List String} (nonempty : pieces ≠ [])
    (plain : ∀ piece ∈ pieces, '/' ∉ piece.toList) :
    (FilePath.mk (String.intercalate "/" pieces)).pieces = pieces := by
  have split : (['/'].intercalate (pieces.map String.toList)).splitOn '/' =
      pieces.map String.toList :=
    List.splitOn_intercalate '/' (by simpa using plain) (by simpa using nonempty)
  rw [pieces_eq]
  simp [split]

theorem intercalate_pieces (path : FilePath) :
    String.intercalate "/" path.pieces = path.text := by
  rw [← String.toList_inj, String.toList_intercalate, pieces_eq]
  simp

/-- A path of several pieces, the last of which is empty, ends with a slash. -/
theorem endsWithSlash_of_pieces {first : List String} (several : first ≠ [])
    (pieces : path.pieces = first ++ [""]) : path.endsWithSlash = true := by
  have text := path.intercalate_pieces
  rw [pieces, String.intercalate_append_of_ne_nil several (by simp)] at text
  rw [endsWithSlash, ← text]
  simp

/-- A path is absolute if it has more than one piece and the first one is
empty. -/
theorem isAbsolute_iff :
    path.isAbsolute = true ↔ ∃ others, others ≠ [] ∧ path.pieces = "" :: others := by
  rw [isAbsolute, pieces_eq, decide_eq_true_eq]
  cases path.text.toList with
  | nil => simp
  | cons c cs =>
      have nonempty := List.splitOn_ne_nil '/' cs
      rw [List.splitOn_cons_eq_if_modifyHead]
      by_cases slash : c = '/'
      · simp [slash]
      · cases pieces : cs.splitOn '/' with
        | nil => exact absurd pieces nonempty
        | cons piece others => simp [slash]

/-- A relative path that follows another one adds its pieces; at most empty ones
between them are lost. -/
theorem pieces_join (base : FilePath) (relative : path.isAbsolute = false) :
    ∃ start idle, base.pieces = start ++ idle ∧ (∀ piece ∈ idle, piece = "") ∧
      (base.join path).pieces = start ++ path.pieces := by
  have notAbsolute : ¬ path.isAbsolute = true := by simp [relative]
  by_cases empty : base.text = ""
  · refine ⟨[], [""], ?_, by simp, ?_⟩
    · simp [pieces_eq, empty]
    · simp [join, relative, empty]
  · by_cases ended : base.endsWithSlash = true
    · obtain ⟨cs, text⟩ : ∃ cs, base.text.toList = cs ++ ['/'] := by
        rw [endsWithSlash, decide_eq_true_eq, List.getLast?_eq_some_iff] at ended
        exact ended
      refine ⟨(cs.splitOn '/').map String.ofList, [""], ?_, by simp, ?_⟩
      · rw [pieces_eq, text, List.splitOn_append_cons_self]
        simp
      · rw [join, if_neg notAbsolute, if_pos (by simp [ended]), pieces_eq, pieces_eq,
          String.toList_append, text, List.append_assoc, List.singleton_append,
          List.splitOn_append_cons_self, List.map_append]
    · refine ⟨base.pieces, [], by simp, by simp, ?_⟩
      have slash : (base.text ++ "/" ++ path.text).toList =
          base.text.toList ++ '/' :: path.text.toList := by
        simp
      rw [join, if_neg notAbsolute, if_neg (by simp [empty, ended]), pieces_eq, slash,
        List.splitOn_append_cons_self, List.map_append, pieces_eq, pieces_eq]

theorem isAbsolute_join (base : FilePath) (relative : path.isAbsolute = false) :
    (base.join path).isAbsolute = base.isAbsolute := by
  have notAbsolute : ¬ path.isAbsolute = true := by simp [relative]
  rw [join, if_neg notAbsolute]
  by_cases empty : base.text = ""
  · rw [if_pos (by simp [empty])]
    simpa [isAbsolute, empty] using relative
  · obtain ⟨c, cs, text⟩ : ∃ c cs, base.text.toList = c :: cs := by
      cases text : base.text.toList with
      | nil => exact absurd (String.toList_eq_nil_iff.mp text) empty
      | cons c cs => exact ⟨c, cs, rfl⟩
    split <;> simp [isAbsolute, text]

theorem isAbsolute_eq_of_pieces {first : String} {rest others : List String}
    (piecesBase : base.pieces = first :: rest) (piecesPath : path.pieces = first :: others)
    (alike : first = "" → (rest = [] ↔ others = [])) :
    base.isAbsolute = path.isAbsolute := by
  rw [Bool.eq_iff_iff, isAbsolute_iff, isAbsolute_iff, piecesBase, piecesPath]
  by_cases empty : first = ""
  · simp [empty, alike empty]
  · simp [empty]

/-- The path of the directory above is empty, or the top directory, or has the
first pieces of the path. -/
theorem parent?_eq_some (found : path.parent? = some parent) :
    parent.text = "" ∨ (parent.text = "/" ∧ path.isAbsolute = true) ∨
      (parent.pieces <+: path.pieces ∧ parent.isAbsolute = path.isAbsolute) := by
  unfold parent? at found
  split at found
  · cases found
  · cases found
  split at found
  case h_1 => cases found
  case h_2 first rest pieces =>
    split at found
    case h_1 =>
      cases found
      exact .inl rfl
    case h_2 step before dropped =>
      have beforePrefix : before.reverse ++ [step] <+: rest := by
        have shortened := List.reverse_prefix.mpr
          (List.dropWhile_suffix isIdlePiece (l := rest.reverse))
        simpa [dropped] using shortened
      have keptPrefix : (before.dropWhile isIdlePiece).reverse <+: rest :=
        (List.reverse_prefix.mpr (List.dropWhile_suffix isIdlePiece)).trans
          ((List.prefix_append ..).trans beforePrefix)
      have restNonempty : rest ≠ [] := by
        rintro rfl
        simp at beforePrefix
      generalize before.dropWhile isIdlePiece = kept at found keptPrefix
      have prefixPieces : first :: kept.reverse <+: path.pieces := by
        rw [pieces]
        exact (List.prefix_cons_inj first).mpr keptPrefix
      have plain : ∀ piece ∈ first :: kept.reverse, '/' ∉ piece.toList := fun _ member =>
        slash_not_mem_of_mem_pieces (prefixPieces.subset member)
      cases kept with
      | nil =>
          cases found
          by_cases absolute : first = ""
          · refine .inr (.inl ⟨by simp [absolute], ?_⟩)
            exact isAbsolute_iff.mpr ⟨rest, restNonempty, by rw [pieces, absolute]⟩
          · have parentPieces := pieces_of_not_mem (plain first (by simp))
            rw [if_neg absolute]
            refine .inr (.inr ⟨by rw [parentPieces]; exact prefixPieces, ?_⟩)
            exact isAbsolute_eq_of_pieces parentPieces pieces (by simp [absolute])
      | cons last kept =>
          cases found
          have parentPieces := pieces_intercalate (by simp) plain
          refine .inr (.inr ⟨by rw [parentPieces]; exact prefixPieces, ?_⟩)
          exact isAbsolute_eq_of_pieces parentPieces pieces (by simp [restNonempty])

end Pieces

end FilePath

end SymbolIndex
