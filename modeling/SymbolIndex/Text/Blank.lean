/-!
# Blank characters

The white space of the Unicode property `White_Space`, and texts with the
blank characters at their two ends removed.  The class is larger than that of
`Char.isWhitespace`, which knows ASCII only.
-/

namespace SymbolIndex

namespace Text

/-- The characters of the Unicode property `White_Space`. -/
def isBlank (c : Char) : Bool :=
  let n := c.toNat
  (9 ≤ n && n ≤ 13) || n == 0x20 || n == 0x85 || n == 0xA0 || n == 0x1680 ||
    (0x2000 ≤ n && n ≤ 0x200A) || n == 0x2028 || n == 0x2029 ||
    n == 0x202F || n == 0x205F || n == 0x3000

def trimStart (cs : List Char) : List Char :=
  cs.dropWhile isBlank

def trimEnd (cs : List Char) : List Char :=
  (cs.reverse.dropWhile isBlank).reverse

/-- Characters without the blank ones at either end. -/
def trimChars (cs : List Char) : List Char :=
  trimEnd (trimStart cs)

def trim (s : String) : String :=
  String.ofList (trimChars s.toList)

theorem trimChars_cons_blank {c : Char} (blank : isBlank c = true) (cs : List Char) :
    trimChars (c :: cs) = trimChars cs := by
  rw [trimChars, trimStart, List.dropWhile_cons_of_pos blank, ← trimStart, ← trimChars]

theorem trimEnd_append_blank {c : Char} (blank : isBlank c = true) (cs : List Char) :
    trimEnd (cs ++ [c]) = trimEnd cs := by
  simp [trimEnd, blank]

theorem trimChars_append_blank {c : Char} (blank : isBlank c = true) (cs : List Char) :
    trimChars (cs ++ [c]) = trimChars cs := by
  rw [trimChars, trimStart, List.dropWhile_append, trimChars, trimStart]
  split
  · rename_i allBlank
    rw [List.isEmpty_iff.mp allBlank, List.dropWhile_cons_of_pos blank, List.dropWhile_nil]
  · exact trimEnd_append_blank blank _

theorem isBlank_of_head?_trimStart {cs : List Char} {c : Char}
    (first : (trimStart cs).head? = some c) : isBlank c = false := by
  have notBlank := List.head?_dropWhile_not isBlank cs
  rw [trimStart] at first
  simpa [first] using notBlank

theorem trimEnd_prefix (cs : List Char) : trimEnd cs <+: cs := by
  have kept : (cs.reverse.dropWhile isBlank).reverse <+: cs.reverse.reverse :=
    List.reverse_prefix.mpr (List.dropWhile_suffix isBlank)
  rwa [List.reverse_reverse] at kept

/-- Trimmed characters do not start with a blank one. -/
theorem isBlank_of_head?_trimChars {cs : List Char} {c : Char}
    (first : (trimChars cs).head? = some c) : isBlank c = false := by
  obtain ⟨rest, equal⟩ := trimEnd_prefix (trimStart cs)
  rw [trimChars] at first
  have startFirst : (trimStart cs).head? = some c := by
    rw [← equal, List.head?_append, first, Option.some_or]
  exact isBlank_of_head?_trimStart startFirst

/-- Trimmed characters do not end with a blank one. -/
theorem isBlank_of_getLast?_trimChars {cs : List Char} {c : Char}
    (last : (trimChars cs).getLast? = some c) : isBlank c = false := by
  have notBlank := List.head?_dropWhile_not isBlank (trimStart cs).reverse
  rw [trimChars, trimEnd, List.getLast?_reverse] at last
  simpa [last] using notBlank

end Text

end SymbolIndex
