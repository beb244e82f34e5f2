import SymbolIndex.Proofs.Symbol.Containment

/-!
# Package roots can be read back

A global symbol consists of the fields of a package and of written descriptors,
and nothing marks where the fields end.  Two facts make up for it.  In written
descriptors a space stands between grave accents only, so an odd number of
grave accents comes after it, while written descriptors have an even number of
them; hence descriptors cannot start after a space inside of other descriptors.
And in the root, the name of a package neither starts nor ends with a space, so
that an odd number of spaces stands before it and after it.
-/

namespace SymbolIndex

namespace Descriptor

/-- Characters with an even number of grave accents, in which every space comes
inside of a pair of them. -/
structure BalancedQuotes (cs : List Char) : Prop where
  even : cs.count quote % 2 = 0
  odd_after_space : ∀ before after, cs = before ++ ' ' :: after → after.count quote % 2 = 1

namespace BalancedQuotes

theorem append {first second : List Char} (firstBalanced : BalancedQuotes first)
    (secondBalanced : BalancedQuotes second) : BalancedQuotes (first ++ second) where
  even := by
    have firstEven := firstBalanced.even
    have secondEven := secondBalanced.even
    rw [List.count_append]
    omega
  odd_after_space := by
    intro before after equal
    rcases List.append_eq_append_iff.mp equal with
      ⟨between, rfl, inSecond⟩ | ⟨between, inFirst, inSecond⟩
    · exact secondBalanced.odd_after_space between after inSecond
    · cases between with
      | nil => exact secondBalanced.odd_after_space [] after (by simpa using inSecond.symm)
      | cons c between =>
          simp only [List.cons_append, List.cons.injEq] at inSecond
          obtain ⟨rfl, rfl⟩ := inSecond
          have firstOdd := firstBalanced.odd_after_space before between inFirst
          have secondEven := secondBalanced.even
          rw [List.count_append]
          omega

theorem of_not_mem {cs : List Char} (noQuote : quote ∉ cs) (noSpace : ' ' ∉ cs) :
    BalancedQuotes cs where
  even := by rw [List.count_eq_zero_of_not_mem noQuote]
  odd_after_space := by
    intro before after equal
    exact absurd (equal ▸ by simp) noSpace

theorem quoted (name : List Char) :
    BalancedQuotes (quote :: (Text.doubled quote name ++ [quote])) where
  even := by
    simp only [List.count_cons_self, List.count_append, Text.count_doubled, List.count_nil]
    omega
  odd_after_space := by
    intro before after equal
    cases before with
    | nil =>
        simp only [List.nil_append, List.cons.injEq] at equal
        exact absurd equal.1 (by decide)
    | cons c before =>
        simp only [List.cons_append, List.cons.injEq] at equal
        -- the closing grave accent is the last of the characters after the space
        rcases List.append_eq_append_iff.mp equal.2 with
          ⟨between, rfl, inLast⟩ | ⟨between, inName, inLast⟩
        · cases between <;> simp [quote] at inLast
        · cases between with
          | nil => simp [quote] at inLast
          | cons d between =>
              simp only [List.cons_append, List.cons.injEq] at inLast
              obtain ⟨rfl, rfl⟩ := inLast
              obtain ⟨rest, rfl⟩ := Text.exists_doubled_of_append_cons (by decide) inName
              simp only [List.count_append, Text.count_doubled, List.count_cons_self,
                List.count_nil]
              omega

theorem escapeChars (name : List Char) : BalancedQuotes (escapeChars name) := by
  cases plain : isPlain name with
  | true =>
      have allPlain := (isPlain_iff.mp plain).2
      rw [escapeChars_of_isPlain plain]
      exact of_not_mem (fun member => absurd (allPlain _ member) (by decide))
        (fun member => absurd (allPlain _ member) (by decide))
  | false =>
      rw [escapeChars_of_not_isPlain plain]
      exact quoted name

theorem opening (kind : Kind) : BalancedQuotes kind.opening := by
  cases kind <;> exact of_not_mem (by decide) (by decide)

theorem disambiguatorChars (disambiguator : String) :
    BalancedQuotes (disambiguatorChars disambiguator) := by
  unfold Descriptor.disambiguatorChars
  split
  · exact of_not_mem (by simp) (by simp)
  · exact escapeChars _

theorem closing (descriptor : Descriptor) : BalancedQuotes descriptor.closing := by
  obtain ⟨name, kind, disambiguator, allowed⟩ := descriptor
  cases kind with
  | method =>
      have starts : BalancedQuotes ['('] := of_not_mem (by decide) (by decide)
      have ends : BalancedQuotes [')', '.'] := of_not_mem (by decide) (by decide)
      exact starts.append ((disambiguatorChars disambiguator).append ends)
  | _ => exact of_not_mem (by simp [Descriptor.closing, quote]) (by simp [Descriptor.closing])

theorem spelling (descriptor : Descriptor) : BalancedQuotes descriptor.spelling := by
  rw [spelling_eq]
  exact ((opening _).append (escapeChars _)).append (closing descriptor)

theorem spellings (descriptors : List Descriptor) :
    BalancedQuotes (spellings descriptors) := by
  induction descriptors with
  | nil => exact of_not_mem (by simp) (by simp)
  | cons descriptor inner ih =>
      rw [spellings_cons]
      exact (spelling descriptor).append ih

end BalancedQuotes

/-- No space inside of written descriptors has written descriptors after it. -/
theorem spellings_ne_append_space (outer inner : List Descriptor) (before : List Char) :
    spellings outer ≠ before ++ ' ' :: spellings inner := by
  intro equal
  have odd := (BalancedQuotes.spellings outer).odd_after_space _ _ equal
  have even := (BalancedQuotes.spellings inner).even
  omega

/-- In a text that ends with a space and written descriptors, that space can be
found. -/
theorem append_space_spellings {first second : List Char} {ds es : List Descriptor}
    (equal : first ++ ' ' :: spellings ds = second ++ ' ' :: spellings es) :
    first = second ∧ ds = es := by
  rcases List.append_eq_append_iff.mp equal with
    ⟨between, rfl, rest⟩ | ⟨between, rfl, rest⟩
  · cases between with
    | nil => exact ⟨by simp, spellings_injective (by simpa using rest)⟩
    | cons c between =>
        simp only [List.cons_append, List.cons.injEq] at rest
        exact absurd rest.2 (spellings_ne_append_space ds es between)
  · cases between with
    | nil => exact ⟨by simp, (spellings_injective (by simpa using rest)).symm⟩
    | cons c between =>
        simp only [List.cons_append, List.cons.injEq] at rest
        exact absurd rest.2 (spellings_ne_append_space es ds between)

end Descriptor

namespace Normalization

theorem exists_trimChars_of_apply (rule : Normalization) (name : String) :
    ∃ cs, (rule.apply name).toList = Text.trimChars cs := by
  cases rule with
  | verbatim => exact ⟨_, String.toList_ofList⟩
  | firstSeparator separator replacement => exact ⟨_, String.toList_ofList⟩

theorem head?_apply (rule : Normalization) (name : String) :
    (rule.apply name).toList.head? ≠ some ' ' := by
  obtain ⟨cs, trimmed⟩ := rule.exists_trimChars_of_apply name
  intro first
  exact absurd (Text.isBlank_of_head?_trimChars (trimmed ▸ first)) (by decide)

theorem getLast?_apply (rule : Normalization) (name : String) :
    (rule.apply name).toList.getLast? ≠ some ' ' := by
  obtain ⟨cs, trimmed⟩ := rule.exists_trimChars_of_apply name
  intro last
  exact absurd (Text.isBlank_of_getLast?_trimChars (trimmed ▸ last)) (by decide)

end Normalization

namespace Ecosystem

/-- A field as it is read back: an empty field and a dot are written alike. -/
def shownField (field : String) : String :=
  if field = "" then "." else field

theorem fieldChars_eq (field : String) :
    fieldChars field = Text.doubled ' ' (shownField field).toList := by
  unfold fieldChars shownField
  split
  · rfl
  · rfl

theorem shownField_ne_empty (field : String) : shownField field ≠ "" := by
  unfold shownField
  split
  · decide
  · assumption

theorem shownField_apply_head? (rule : Normalization) (name : String) :
    (shownField (rule.apply name)).toList.head? ≠ some ' ' := by
  unfold shownField
  split
  · decide
  · exact rule.head?_apply name

theorem shownField_apply_getLast? (rule : Normalization) (name : String) :
    (shownField (rule.apply name)).toList.getLast? ≠ some ' ' := by
  unfold shownField
  split
  · decide
  · exact rule.getLast?_apply name

/-- The field of a normalized name starts with a character other than a space. -/
theorem fieldChars_apply_append_head? (rule : Normalization) (name : String)
    (after : List Char) : (fieldChars (rule.apply name) ++ after).head? ≠ some ' ' := by
  have notSpace := shownField_apply_head? rule name
  have notEmpty := shownField_ne_empty (rule.apply name)
  rw [fieldChars_eq, List.head?_append, Text.head?_doubled]
  cases chars : (shownField (rule.apply name)).toList with
  | nil => exact absurd (String.toList_injective (by simpa using chars)) notEmpty
  | cons c rest => simpa [chars] using notSpace

theorem fieldChars_apply_reverse_head? (rule : Normalization) (name : String) :
    (fieldChars (rule.apply name)).reverse.head? ≠ some ' ' := by
  rw [fieldChars_eq, ← Text.doubled_reverse, Text.head?_doubled, List.head?_reverse]
  exact shownField_apply_getLast? rule name

/-- The fields of a package can be read back from the characters of its root:
the manager from the front, and the version from the back. -/
theorem rootChars_injective {ecosystem : Ecosystem}
    {manager name version otherManager otherName otherVersion : String}
    (equal : ecosystem.rootChars manager name version =
      ecosystem.rootChars otherManager otherName otherVersion) :
    shownField manager = shownField otherManager ∧
      shownField (ecosystem.normalization.apply name) =
        shownField (ecosystem.normalization.apply otherName) ∧
      shownField version = shownField otherVersion := by
  simp only [rootChars, List.append_assoc, List.cons_append,
    List.append_cancel_left_eq, List.cons.injEq, true_and] at equal
  rw [fieldChars_eq manager, fieldChars_eq otherManager] at equal
  obtain ⟨sameManager, sameRest⟩ := Text.doubled_append_mark
    (fieldChars_apply_append_head? _ _ _) (fieldChars_apply_append_head? _ _ _) equal
  have endSame :
      fieldChars (ecosystem.normalization.apply name) ++ ' ' :: fieldChars version =
        fieldChars (ecosystem.normalization.apply otherName) ++
          ' ' :: fieldChars otherVersion := by
    have spaced := sameRest
    simp only [← List.cons_append, ← List.append_assoc] at spaced
    exact List.append_cancel_right spaced
  have reversed := congrArg List.reverse endSame
  simp only [List.reverse_append, List.reverse_cons, List.append_assoc,
    List.singleton_append] at reversed
  rw [fieldChars_eq version, fieldChars_eq otherVersion, ← Text.doubled_reverse,
    ← Text.doubled_reverse] at reversed
  obtain ⟨sameVersion, sameName⟩ := Text.doubled_append_mark
    (fieldChars_apply_reverse_head? _ _) (fieldChars_apply_reverse_head? _ _) reversed
  rw [fieldChars_eq, fieldChars_eq, List.reverse_inj] at sameName
  exact ⟨String.toList_injective sameManager,
    String.toList_injective (Text.doubled_injective sameName),
    String.toList_injective (List.reverse_inj.mp sameVersion)⟩

theorem exists_rootChars_eq (ecosystem : Ecosystem) (manager name version : String) :
    ∃ fields, ecosystem.rootChars manager name version = fields ++ [' '] :=
  ⟨_, rfl⟩

/-- The text of a symbol below a package root tells the package and the
descriptors, where an empty field of the package reads like a dot. -/
theorem packageRoot_path_injective {ecosystem : Ecosystem}
    {manager name version otherManager otherName otherVersion : String}
    {descriptors otherDescriptors : List Descriptor} {symbol other : Symbol}
    (reached : (Symbol.global (ecosystem.packageRoot manager name version)).path
      descriptors = .ok symbol)
    (otherReached : (Symbol.global
      (ecosystem.packageRoot otherManager otherName otherVersion)).path
        otherDescriptors = .ok other)
    (sameText : symbol.text = other.text) :
    descriptors = otherDescriptors ∧
      shownField manager = shownField otherManager ∧
      shownField (ecosystem.normalization.apply name) =
        shownField (ecosystem.normalization.apply otherName) ∧
      shownField version = shownField otherVersion := by
  have sameChars : ecosystem.rootChars manager name version ++
        Descriptor.spellings descriptors =
      ecosystem.rootChars otherManager otherName otherVersion ++
        Descriptor.spellings otherDescriptors := by
    have textChars := Symbol.path_text reached
    rw [sameText, Symbol.path_text otherReached] at textChars
    simpa [Symbol.text, packageRoot] using textChars.symm
  obtain ⟨fields, rootEq⟩ := ecosystem.exists_rootChars_eq manager name version
  obtain ⟨otherFields, otherRootEq⟩ :=
    ecosystem.exists_rootChars_eq otherManager otherName otherVersion
  rw [rootEq, otherRootEq, List.append_assoc, List.append_assoc] at sameChars
  obtain ⟨sameFields, sameDescriptors⟩ := Descriptor.append_space_spellings sameChars
  refine ⟨sameDescriptors, rootChars_injective ?_⟩
  rw [rootEq, otherRootEq, sameFields]

/-- A version of one space and a quoted name with spaces: the two spellings of the
package are all that differs. -/
theorem packageRoot_path_injective_of_spaces :
    let descriptors := [Descriptor.plain "x 1 \x60" .term]
    let symbol := Symbol.global
      ⟨"scip-python . a/b    \x60x 1 \x60\x60\x60.", 1⟩
    (Symbol.global (python.packageRoot "" "a.b" " ")).path descriptors = .ok symbol ∧
      (Symbol.global (python.packageRoot "." " a/b" " ")).path descriptors = .ok symbol ∧
      shownField "" = shownField "." ∧
      shownField (python.normalization.apply "a.b") =
        shownField (python.normalization.apply " a/b") := by
  intro descriptors symbol
  have reached :
      (Symbol.global (python.packageRoot "" "a.b" " ")).path descriptors = .ok symbol := by
    rfl
  have otherReached :
      (Symbol.global (python.packageRoot "." " a/b" " ")).path descriptors =
        .ok symbol := by
    rfl
  obtain ⟨-, sameManager, sameName, -⟩ :=
    packageRoot_path_injective reached otherReached rfl
  exact ⟨reached, otherReached, sameManager, sameName⟩

end Ecosystem

end SymbolIndex
