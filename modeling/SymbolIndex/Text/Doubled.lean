/-!
# Doubled characters

A character that would be misread is written twice.  Written this way, a text
has an even number of the character in every run of it, so that a single one
after the text stands out: `doubled_append_mark` says that the text and what
comes after the single character can both be read back.
-/

namespace SymbolIndex

namespace Text

/-- Characters with every `mark` written twice. -/
def doubled (mark : Char) : List Char → List Char
  | [] => []
  | c :: rest =>
    if c = mark then mark :: mark :: doubled mark rest else c :: doubled mark rest

@[simp]
theorem doubled_nil (mark : Char) : doubled mark [] = [] :=
  rfl

@[simp]
theorem doubled_cons_self (mark : Char) (cs : List Char) :
    doubled mark (mark :: cs) = mark :: mark :: doubled mark cs := by
  simp [doubled]

theorem doubled_cons_of_ne {mark c : Char} (differs : c ≠ mark) (cs : List Char) :
    doubled mark (c :: cs) = c :: doubled mark cs := by
  simp [doubled, differs]

@[simp]
theorem doubled_append (mark : Char) (first second : List Char) :
    doubled mark (first ++ second) = doubled mark first ++ doubled mark second := by
  induction first with
  | nil => rfl
  | cons c first ih =>
      by_cases isMark : c = mark
      · subst isMark
        simp [ih]
      · simp [doubled_cons_of_ne isMark, ih]

theorem doubled_reverse (mark : Char) (cs : List Char) :
    doubled mark cs.reverse = (doubled mark cs).reverse := by
  induction cs with
  | nil => rfl
  | cons c cs ih =>
      by_cases isMark : c = mark
      · subst isMark
        simp [ih]
      · simp [doubled_cons_of_ne isMark, ih]

@[simp]
theorem head?_doubled (mark : Char) (cs : List Char) :
    (doubled mark cs).head? = cs.head? := by
  cases cs with
  | nil => rfl
  | cons c cs =>
      by_cases isMark : c = mark
      · subst isMark
        simp
      · simp [doubled_cons_of_ne isMark]

/-- A single mark does not begin a text that is not empty and has its marks
doubled. -/
theorem mark_cons_ne_doubled_append {mark : Char} {after : List Char}
    (afterStart : after.head? ≠ some mark) (d : Char) (cs other : List Char) :
    mark :: after ≠ doubled mark (d :: cs) ++ other := by
  intro equal
  by_cases isMark : d = mark
  · subst isMark
    simp only [doubled_cons_self, List.cons_append, List.cons.injEq, true_and] at equal
    simp [equal] at afterStart
  · simp only [doubled_cons_of_ne isMark, List.cons_append, List.cons.injEq] at equal
    exact isMark equal.1.symm

/-- A text whose marks are doubled ends where the first run of an odd number of
marks ends, less one. -/
theorem doubled_append_mark {mark : Char} {first second after other : List Char}
    (afterStart : after.head? ≠ some mark) (otherStart : other.head? ≠ some mark)
    (equal : doubled mark first ++ mark :: after =
      doubled mark second ++ mark :: other) :
    first = second ∧ after = other := by
  induction first generalizing second with
  | nil =>
      cases second with
      | nil => simpa using equal
      | cons d second =>
          exact absurd equal (mark_cons_ne_doubled_append afterStart d second _)
  | cons c first ih =>
      cases second with
      | nil => exact absurd equal.symm (mark_cons_ne_doubled_append otherStart c first _)
      | cons d second =>
          by_cases firstMark : c = mark <;> by_cases secondMark : d = mark
          · subst firstMark secondMark
            simp only [doubled_cons_self, List.cons_append, List.cons.injEq,
              true_and] at equal
            simpa using ih equal
          · subst firstMark
            simp only [doubled_cons_self, doubled_cons_of_ne secondMark,
              List.cons_append, List.cons.injEq] at equal
            exact absurd equal.1.symm secondMark
          · subst secondMark
            simp only [doubled_cons_self, doubled_cons_of_ne firstMark,
              List.cons_append, List.cons.injEq] at equal
            exact absurd equal.1 firstMark
          · simp only [doubled_cons_of_ne firstMark, doubled_cons_of_ne secondMark,
              List.cons_append, List.cons.injEq] at equal
            obtain ⟨sameHead, sameTail⟩ := equal
            simpa [sameHead] using ih sameTail

theorem doubled_injective {mark : Char} {first second : List Char}
    (equal : doubled mark first = doubled mark second) : first = second := by
  have ended : doubled mark first ++ mark :: [] = doubled mark second ++ mark :: [] := by
    rw [equal]
  exact (doubled_append_mark (by simp) (by simp) ended).1

/-- What follows another character in a text with doubled marks has doubled
marks too. -/
theorem exists_doubled_of_append_cons {mark c : Char} {cs before after : List Char}
    (differs : c ≠ mark) (equal : doubled mark cs = before ++ c :: after) :
    ∃ rest, after = doubled mark rest := by
  induction cs generalizing before with
  | nil => simp at equal
  | cons d cs ih =>
      by_cases isMark : d = mark
      · subst isMark
        rw [doubled_cons_self] at equal
        match before with
        | [] =>
            simp at equal
            exact absurd equal.1.symm differs
        | [_] =>
            simp at equal
            exact absurd equal.2.1.symm differs
        | _ :: _ :: before =>
            simp only [List.cons_append, List.cons.injEq] at equal
            exact ih equal.2.2
      · rw [doubled_cons_of_ne isMark] at equal
        match before with
        | [] =>
            simp only [List.nil_append, List.cons.injEq] at equal
            exact ⟨cs, equal.2.symm⟩
        | _ :: before =>
            simp only [List.cons_append, List.cons.injEq] at equal
            exact ih equal.2

theorem count_doubled (mark : Char) (cs : List Char) :
    (doubled mark cs).count mark = 2 * cs.count mark := by
  induction cs with
  | nil => rfl
  | cons c cs ih =>
      by_cases isMark : c = mark
      · subst isMark
        simp [ih]
        omega
      · simp [doubled_cons_of_ne isMark, ih, isMark]

end Text

end SymbolIndex
