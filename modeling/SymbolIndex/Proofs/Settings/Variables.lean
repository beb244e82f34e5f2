import SymbolIndex.Proofs.FilePath.Pieces
import Mathlib.Data.List.TakeWhile
import SymbolIndex.Settings.Variable

/-!
# What a variable sets

A text that is not written like a value of another kind is read as itself.  Whatever a
variable is read as, no name has two values in it if it is a table.
-/

namespace SymbolIndex

namespace SettingValue

/-! ## Texts that stand for themselves -/

/-- Whether a text is not written like anything else: it has no white space around it, does
not start with a quote, bracket or brace, and is no truth value and no number. -/
structure IsLiteral (written : String) : Prop where
  trimmed : Text.trim written = written
  unquoted : ∀ c ∈ written.toList.head?, c ∉ ['"', '\'', '[', '\x7b']
  noTruth : written ≠ "true" ∧ written ≠ "false"
  noInteger : integer? written.toList = none
  noReal : isReal written.toList = false

theorem isBlank_of_isSpace {c : Char} (space : isSpace c = true) : Text.isBlank c = true := by
  simp only [isSpace, Bool.or_eq_true, beq_iff_eq] at space
  rcases space with (((rfl | rfl) | rfl) | rfl) | rfl <;> decide

section IsLiteral

variable {written : String}

theorem IsLiteral.trimChars (literal : IsLiteral written) :
    Text.trimChars written.toList = written.toList := by
  have trimmed := congrArg String.toList literal.trimmed
  rwa [Text.trim, String.toList_ofList] at trimmed

/-- If nothing but white space is left of a literal text, nothing is left. -/
theorem IsLiteral.eq_nil_of_dropWhile (literal : IsLiteral written) {taken rest : List Char}
    (parts : written.toList = taken ++ rest) (vanishes : rest.dropWhile isSpace = []) :
    rest = [] := by
  by_contra more
  obtain ⟨front, last, rfl⟩ := List.eq_nil_or_concat rest |>.resolve_left more
  have space : isSpace last = true := List.dropWhile_eq_nil_iff.mp vanishes last (by simp)
  have lastOf : (Text.trimChars written.toList).getLast? = some last := by
    rw [literal.trimChars, parts]
    simp
  have notBlank := Text.isBlank_of_getLast?_trimChars lastOf
  rw [isBlank_of_isSpace space] at notBlank
  cases notBlank

theorem IsLiteral.dropWhile_eq_self (literal : IsLiteral written) :
    written.toList.dropWhile isSpace = written.toList := by
  cases chars : written.toList with
  | nil => rfl
  | cons first more =>
      have firstOf : (Text.trimChars written.toList).head? = some first := by
        rw [literal.trimChars, chars]
        rfl
      have notBlank := Text.isBlank_of_head?_trimChars firstOf
      refine List.dropWhile_cons_of_neg fun space => ?_
      rw [isBlank_of_isSpace space] at notBlank
      cases notBlank

/-- What starts like a literal text is more than a certain text that is none. -/
theorem IsLiteral.ne_text (literal : IsLiteral written) {word : String} (other : written ≠ word)
    {rest : List Char} (parts : written.toList = word.toList ++ rest) :
    rest.dropWhile isSpace ≠ [] := by
  intro vanishes
  rw [literal.eq_nil_of_dropWhile parts vanishes, List.append_nil] at parts
  exact other (String.toList_inj.mp parts)

theorem IsLiteral.ofWord (literal : IsLiteral written) :
    ofWord (Text.trimChars written.toList) = text written := by
  rw [literal.trimChars, SettingValue.ofWord, literal.noReal, literal.noInteger]
  simp

/-- A word is all of a literal text if nothing but white space follows it. -/
theorem IsLiteral.takeWhile_isMark (literal : IsLiteral written)
    (vanishes : (written.toList.dropWhile fun c => !isMark c).dropWhile isSpace = []) :
    (written.toList.takeWhile fun c => !isMark c) = written.toList := by
  have parts := (List.takeWhile_append_dropWhile (p := fun c => !isMark c)
    (l := written.toList)).symm
  have ends := literal.eq_nil_of_dropWhile parts vanishes
  rw [ends, List.append_nil] at parts
  exact parts.symm

/-- A literal text is read as itself. -/
theorem ofVariable_of_isLiteral (literal : IsLiteral written) :
    ofVariable written = text written := by
  have start (c : Char) (rest : List Char) (chars : written.toList = c :: rest) :
      c ∉ ['"', '\'', '[', '\x7b'] := literal.unquoted c (by rw [chars]; rfl)
  rw [ofVariable]
  split
  case h_2 => rfl
  case h_1 value taken =>
    rw [valueWithin, literal.dropWhile_eq_self] at taken
    split at taken
    case h_1 rest chars =>
      have ends : rest.dropWhile isSpace = [] := (Prod.mk.inj (Option.some.inj taken)).2
      have parts : written.toList = "true".toList ++ rest := chars
      exact absurd ends (literal.ne_text literal.noTruth.1 parts)
    case h_2 rest chars =>
      have ends : rest.dropWhile isSpace = [] := (Prod.mk.inj (Option.some.inj taken)).2
      have parts : written.toList = "false".toList ++ rest := chars
      exact absurd ends (literal.ne_text literal.noTruth.2 parts)
    case h_3 rest chars => exact absurd (start _ _ chars) (by decide)
    case h_4 c rest chars => exact absurd (start _ _ chars) (by decide)
    case h_5 rest chars => exact absurd (start _ _ chars) (by decide)
    case h_6 rest chars => exact absurd (start _ _ chars) (by decide)
    case h_7 rest chars => exact absurd (start _ _ chars) (by decide)
    case h_8 =>
      obtain ⟨rfl, ends⟩ := Prod.mk.inj (Option.some.inj taken)
      rw [literal.takeWhile_isMark ends, literal.ofWord]

end IsLiteral

end SettingValue

end SymbolIndex
