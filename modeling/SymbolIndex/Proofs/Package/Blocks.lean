import SymbolIndex.Package.Listing
import SymbolIndex.Proofs.FilePath.Pieces
import Mathlib.Data.List.TakeWhile

/-!
# The blocks of a listing

A listing is read twice: it is cut into blocks, and the lines of a block are read one
after the other.  A line feed before or after a block tells nothing of its package, so a
listing of two parts with a line of three dashes between them tells the packages of the
first part and then those of the second.
-/

namespace SymbolIndex

namespace Listing

open Text (dropReturn splitOnChar trimChars)

section Lines

variable {draft : Draft} {line key value : List Char}

theorem ne_colon_of_mem (noColon : ':' ∉ line) : ∀ c ∈ line, decide (c ≠ ':') = true :=
  fun _ member => decide_eq_true fun same => noColon (same ▸ member)

theorem splitAtColon_append (noColon : ':' ∉ key) (value : List Char) :
    splitAtColon (key ++ ':' :: value) = some (key, value) := by
  have before := ne_colon_of_mem noColon
  rw [splitAtColon, List.dropWhile_append_of_pos before, List.takeWhile_append_of_pos before]
  simp

theorem splitAtColon_eq_none (noColon : ':' ∉ line) : splitAtColon line = none := by
  rw [splitAtColon, List.dropWhile_eq_nil_iff.mpr (ne_colon_of_mem noColon)]

theorem readLine_nil (draft : Draft) : readLine draft [] = { draft with inFiles := false } := by
  simp [readLine, isIndented, readHeader, splitAtColon]

/-- A line that is not indented is read as a header, inside and outside of a list of
files. -/
theorem readLine_of_not_indented (notIndented : isIndented line = false) (draft : Draft) :
    readLine draft line = readHeader { draft with inFiles := false } line := by
  rw [readLine, notIndented, Bool.and_false, if_neg Bool.false_ne_true]

theorem readHeader_append_return (draft : Draft) (line : List Char) :
    readHeader draft (line ++ ['\r']) = readHeader draft line := by
  have blank : Text.isBlank '\r' = true := by decide
  by_cases colon : ':' ∈ line
  · obtain ⟨key, value, rfl, noColon⟩ := List.eq_append_cons_of_mem colon
    rw [List.append_assoc, List.cons_append, readHeader, readHeader,
      splitAtColon_append noColon, splitAtColon_append noColon]
    simp only [Text.trimChars_append_blank blank]
  · have longer : ':' ∉ line ++ ['\r'] := by simp [colon]
    rw [readHeader, readHeader, splitAtColon_eq_none colon, splitAtColon_eq_none longer]

/-- A carriage return at the end of a line is not noticed, unless it is all of the line. -/
theorem readLine_dropReturn (notReturn : line ≠ ['\r']) (draft : Draft) :
    readLine draft (dropReturn line) = readLine draft line := by
  rcases Text.dropReturn_eq_self_or line with same | longer
  · rw [same]
  · have blank : Text.isBlank '\r' = true := by decide
    generalize dropReturn line = start at longer
    subst longer
    cases start with
    | nil => exact absurd rfl notReturn
    | cons c start =>
        have indented : isIndented (c :: start ++ ['\r']) = isIndented (c :: start) := rfl
        rw [readLine, readLine, indented, Text.trimChars_append_blank blank,
          readHeader_append_return]

/-- At the end of a block a carriage return is never noticed. -/
theorem package?_readLine_dropReturn (draft : Draft) (line : List Char) :
    (readLine draft (dropReturn line)).package? = (readLine draft line).package? := by
  by_cases isReturn : line = ['\r']
  · subst isReturn
    have alone : dropReturn ['\r'] = [] := rfl
    have blank : trimChars ['\r'] = [] := rfl
    have indented : isIndented ['\r'] = true := rfl
    rw [alone, readLine_nil, readLine, indented, Bool.and_true, blank]
    split
    · rfl
    · rfl
  · rw [readLine_dropReturn isReturn]

/-- What the lines between the line feeds of a block tell of its package.  A line feed at
the end of the block adds an empty one. -/
theorem packageOfBlock?_eq (block : List Char) :
    packageOfBlock? block =
      (((splitOnChar '\n' block).map dropReturn).foldl readLine {}).package? := by
  obtain ⟨init, last, pieces⟩ : ∃ init last, splitOnChar '\n' block = init ++ [last] := by
    have nonempty := Text.splitOnChar_ne_nil '\n' block
    exact ⟨_, _, (List.dropLast_append_getLast nonempty).symm⟩
  simp only [packageOfBlock?, Text.lineChars, pieces, List.dropLast_concat,
    List.getLast?_concat, List.map_append, List.map_cons, List.map_nil, List.foldl_append,
    List.foldl_cons, List.foldl_nil, package?_readLine_dropReturn]
  cases last with
  | nil =>
      rw [readLine_nil]
      rfl
  | cons c last => rw [List.foldl_append, List.foldl_cons, List.foldl_nil]

theorem packageOfBlock?_cons_feed (block : List Char) :
    packageOfBlock? ('\n' :: block) = packageOfBlock? block := by
  have pieces : splitOnChar '\n' ('\n' :: block) = [] :: splitOnChar '\n' block := by
    simp [splitOnChar]
  rw [packageOfBlock?_eq, packageOfBlock?_eq, pieces, List.map_cons, List.foldl_cons]
  change (_ : Draft).package? = _
  rw [show dropReturn [] = [] from rfl, readLine_nil]

theorem packageOfBlock?_append_feed (block : List Char) :
    packageOfBlock? (block ++ ['\n']) = packageOfBlock? block := by
  rw [packageOfBlock?_eq, packageOfBlock?_eq, Text.splitOnChar_append_separator,
    List.map_append, List.foldl_append]
  change (readLine _ []).package? = _
  rw [readLine_nil]
  rfl

end Lines

section Blocks

/-- How a line that ends a block starts. -/
def dashes : List Char := ['-', '-', '-']

/-- What ends a block. -/
def separator : List Char := '\n' :: dashes

theorem blocksFrom_separator (current rest : List Char) :
    blocksFrom current (separator ++ rest) = current.reverse :: blocks rest := rfl

theorem blocksFrom_cons {c : Char} {cs : List Char} (goesOn : ¬ separator <+: c :: cs)
    (current : List Char) : blocksFrom current (c :: cs) = blocksFrom (c :: current) cs := by
  rw [blocksFrom]
  rintro rest rfl rfl
  exact goesOn ⟨rest, rfl⟩

theorem not_separator_prefix_cons {c : Char} {cs : List Char}
    (notSeparator : ∀ rest, c = '\n' → cs = '-' :: '-' :: '-' :: rest → False) :
    ¬ separator <+: c :: cs := by
  rintro ⟨rest, equal⟩
  obtain ⟨rfl, rfl⟩ := List.cons.inj equal
  exact notSeparator rest rfl rfl

/-- Dashes before the end of a line are in the line. -/
theorem dashes_prefix_of_append_feed {line rest : List Char}
    (starts : dashes <+: line ++ '\n' :: rest) : dashes <+: line := by
  have noFeed : '\n' ∉ dashes := by decide
  have feed : line ++ ['\n'] <+: line ++ '\n' :: rest := by simp
  rcases List.prefix_or_prefix_of_prefix starts feed with early | late
  · rcases List.prefix_concat_iff.mp early with whole | early
    · exact absurd (by simp [whole]) noFeed
    · exact early
  · exact absurd (late.subset (by simp)) noFeed

/-- A separator does not start before a line feed and end after it. -/
theorem not_separator_prefix_append {c : Char} {cs : List Char}
    (goesOn : ¬ separator <+: c :: cs) (rest : List Char) :
    ¬ separator <+: c :: (cs ++ '\n' :: rest) := by
  intro starts
  obtain ⟨rfl, dashed⟩ := List.cons_prefix_cons.mp starts
  exact goesOn (List.cons_prefix_cons.mpr ⟨rfl, dashes_prefix_of_append_feed dashed⟩)

theorem blocksFrom_append_separator (current first rest : List Char) :
    blocksFrom current (first ++ (separator ++ rest)) =
      blocksFrom current first ++ blocks rest := by
  fun_induction blocksFrom current first with
  | case1 current => exact blocksFrom_separator current rest
  | case2 current first ih =>
      change blocksFrom current (separator ++ (first ++ (separator ++ rest))) = _
      rw [blocksFrom_separator, List.cons_append, ← ih, blocks]
  | case3 current c first notSeparator ih =>
      have goesOn := not_separator_prefix_append (not_separator_prefix_cons notSeparator)
        (dashes ++ rest)
      rw [List.cons_append, ← ih]
      exact blocksFrom_cons goesOn current

/-- Characters that were read before belong to the first block. -/
theorem blocksFrom_append (near far cs : List Char) :
    blocksFrom (near ++ far) cs = (blocksFrom near cs).modifyHead (far.reverse ++ ·) := by
  fun_induction blocksFrom near cs with
  | case1 near => simp [blocksFrom]
  | case2 near rest ih => simp [blocksFrom]
  | case3 near c cs notSeparator ih =>
      rw [blocksFrom_cons (not_separator_prefix_cons notSeparator), ← List.cons_append, ih]

/-- The packages that some characters of a listing tell. -/
def packagesIn (cs : List Char) : List Package :=
  (blocks cs).filterMap packageOfBlock?

theorem packagesIn_append_separator (first rest : List Char) :
    packagesIn (first ++ (separator ++ rest)) = packagesIn first ++ packagesIn rest := by
  rw [packagesIn, blocks, blocksFrom_append_separator, List.filterMap_append]
  rfl

theorem packagesIn_cons_feed {cs : List Char} (goesOn : ¬ dashes <+: cs) :
    packagesIn ('\n' :: cs) = packagesIn cs := by
  have notSeparator : ¬ separator <+: '\n' :: cs := fun starts =>
    goesOn (List.cons_prefix_cons.mp starts).2
  have first : blocks ('\n' :: cs) = (blocks cs).modifyHead ('\n' :: ·) := by
    rw [blocks, blocksFrom_cons notSeparator]
    exact blocksFrom_append [] ['\n'] cs
  rw [packagesIn, packagesIn, first]
  cases blocks cs with
  | nil => rfl
  | cons block others =>
      rw [List.modifyHead_cons, List.filterMap_cons, packageOfBlock?_cons_feed,
        List.filterMap_cons]

theorem filterMap_blocksFrom_append_feed (current cs : List Char) :
    (blocksFrom current (cs ++ ['\n'])).filterMap packageOfBlock? =
      (blocksFrom current cs).filterMap packageOfBlock? := by
  fun_induction blocksFrom current cs with
  | case1 current =>
      have whole : blocksFrom current ['\n'] = [current.reverse ++ ['\n']] := by
        simp [blocksFrom]
      rw [List.nil_append, whole, List.filterMap_cons, packageOfBlock?_append_feed,
        List.filterMap_cons]
  | case2 current rest ih =>
      have cut := blocksFrom_separator current (rest ++ ['\n'])
      change blocksFrom current ('\n' :: '-' :: '-' :: '-' :: rest ++ ['\n']) = _ at cut
      rw [cut, List.filterMap_cons, List.filterMap_cons, blocks, ih]
  | case3 current c cs notSeparator ih =>
      have goesOn := not_separator_prefix_append (not_separator_prefix_cons notSeparator) []
      rw [List.cons_append, blocksFrom_cons goesOn, ih]

theorem packagesIn_append_feed (cs : List Char) :
    packagesIn (cs ++ ['\n']) = packagesIn cs :=
  filterMap_blocksFrom_append_feed [] cs

/-- The packages of two texts with a line of three dashes between them are those of the
first and those of the second. -/
theorem packagesIn_append_line (first : List Char) {rest : List Char}
    (goesOn : ¬ dashes <+: rest) :
    packagesIn (first ++ (separator ++ '\n' :: rest)) = packagesIn first ++ packagesIn rest := by
  rw [packagesIn_append_separator, packagesIn_cons_feed goesOn]

/-- A text without a separator is one block. -/
theorem blocksFrom_of_whole {cs : List Char} (whole : ¬ separator <:+: cs)
    (current : List Char) : blocksFrom current cs = [current.reverse ++ cs] := by
  induction cs generalizing current with
  | nil => simp [blocksFrom]
  | cons c cs ih =>
      have goesOn : ¬ separator <+: c :: cs := fun starts => whole starts.isInfix
      have later : ¬ separator <:+: cs := fun inside => whole (List.infix_cons inside)
      rw [blocksFrom_cons goesOn, ih later, List.reverse_cons, List.append_assoc,
        List.singleton_append]

/-- In lines none of which but the first starts with three dashes there is no
separator. -/
theorem not_infix_separator {lines : List (List Char)} (nonempty : lines ≠ [])
    (plain : ∀ line ∈ lines, '\n' ∉ line)
    (goesOn : ∀ line ∈ lines.tail, ¬ dashes <+: line) :
    ¬ separator <:+: ['\n'].intercalate lines := by
  rintro ⟨before, after, text⟩
  have cut := Text.splitOnChar_intercalate nonempty plain
  have text : before ++ '\n' :: '-' :: '-' :: '-' :: after = ['\n'].intercalate lines := by
    rw [← text]
    simp [separator, dashes]
  obtain ⟨piece, pieces, split⟩ : ∃ piece pieces, splitOnChar '\n' after = piece :: pieces :=
    List.exists_cons_of_ne_nil (Text.splitOnChar_ne_nil '\n' after)
  have dashes : splitOnChar '\n' ('-' :: '-' :: '-' :: after) =
      ('-' :: '-' :: '-' :: piece) :: pieces := by
    simp [splitOnChar, split]
  obtain ⟨first, others, firstLines⟩ :=
    List.exists_cons_of_ne_nil (Text.splitOnChar_ne_nil '\n' before)
  rw [← text, Text.splitOnChar_append_separator, dashes, firstLines] at cut
  have later : '-' :: '-' :: '-' :: piece ∈ lines.tail := by
    rw [← cut]
    simp
  exact goesOn _ later ⟨piece, rfl⟩

theorem foldl_readLine_map_dropReturn {lines : List (List Char)} (noReturn : ['\r'] ∉ lines)
    (draft : Draft) : (lines.map dropReturn).foldl readLine draft = lines.foldl readLine draft := by
  induction lines generalizing draft with
  | nil => rfl
  | cons line lines ih =>
      rw [List.mem_cons, not_or] at noReturn
      rw [List.map_cons, List.foldl_cons, List.foldl_cons,
        readLine_dropReturn (Ne.symm noReturn.1), ih noReturn.2]

/-- The package of a block of lines none of which but the first starts with three
dashes, and none of which is a carriage return alone. -/
theorem packagesIn_lines {lines : List (List Char)} (nonempty : lines ≠ [])
    (plain : ∀ line ∈ lines, '\n' ∉ line)
    (goesOn : ∀ line ∈ lines.tail, ¬ dashes <+: line)
    (noReturn : ['\r'] ∉ lines) :
    packagesIn (['\n'].intercalate lines) = (lines.foldl readLine {}).package?.toList := by
  rw [packagesIn, blocks, blocksFrom_of_whole (not_infix_separator nonempty plain goesOn),
    List.reverse_nil, List.nil_append, List.filterMap_cons, packageOfBlock?_eq,
    Text.splitOnChar_intercalate nonempty plain, foldl_readLine_map_dropReturn noReturn]
  cases (lines.foldl readLine {}).package? <;> rfl

end Blocks

end Listing

end SymbolIndex
