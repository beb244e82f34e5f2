import SymbolIndex.Symbol.Descriptor

/-!
# Written descriptors as a code

A written descriptor is told apart from whatever follows it: no written
descriptor is a beginning of another one.  A name ends where the first character
stands that is neither plain nor a grave accent, and quoting makes this true of
names that contain such characters.  Descriptors written one after the other can
therefore be read back, and one such text is a beginning of another exactly when
the same holds of the lists of descriptors.
-/

namespace SymbolIndex

namespace Descriptor

/-- Whether characters start with one that ends a name. -/
def StartsWithDelimiter (cs : List Char) : Prop :=
  ∃ c rest, cs = c :: rest ∧ isPlainChar c = false ∧ c ≠ quote

/-- Whether characters start with one that a written name starts with. -/
def StartsWithName (cs : List Char) : Prop :=
  ∃ c rest, cs = c :: rest ∧ (isPlainChar c = true ∨ c = quote)

theorem StartsWithName.not_startsWithDelimiter {cs : List Char}
    (name : StartsWithName cs) : ¬ StartsWithDelimiter cs := by
  rintro ⟨c, rest, rfl, notPlain, notQuote⟩
  obtain ⟨d, others, equal, plain | isQuote⟩ := name
  · simp_all
  · simp_all

@[simp]
theorem isPlainChar_quote : isPlainChar quote = false := by
  decide

theorem isPlain_iff {name : List Char} :
    isPlain name = true ↔ name ≠ [] ∧ ∀ c ∈ name, isPlainChar c = true := by
  simp [isPlain]

theorem escapeChars_of_isPlain {name : List Char} (plain : isPlain name = true) :
    escapeChars name = name := by
  simp [escapeChars, plain]

theorem escapeChars_of_not_isPlain {name : List Char} (special : isPlain name = false) :
    escapeChars name = quote :: (Text.doubled quote name ++ [quote]) := by
  simp [escapeChars, special]

theorem escapeChars_startsWithName (name after : List Char) :
    StartsWithName (escapeChars name ++ after) := by
  cases plain : isPlain name with
  | true =>
      obtain ⟨notEmpty, allPlain⟩ := isPlain_iff.mp plain
      obtain ⟨c, rest, rfl⟩ := List.exists_cons_of_ne_nil notEmpty
      rw [escapeChars_of_isPlain plain]
      exact ⟨c, rest ++ after, rfl, .inl (allPlain c (by simp))⟩
  | false =>
      rw [escapeChars_of_not_isPlain plain]
      exact ⟨quote, _, rfl, .inr rfl⟩

theorem takeWhile_isPlainChar {name after : List Char}
    (allPlain : ∀ c ∈ name, isPlainChar c = true)
    (delimited : StartsWithDelimiter after) :
    (name ++ after).takeWhile isPlainChar = name := by
  obtain ⟨c, rest, rfl, notPlain, -⟩ := delimited
  rw [List.takeWhile_append_of_pos allPlain]
  simp [notPlain]

theorem append_ne_quote_cons {name : List Char} (plain : isPlain name = true)
    (after rest : List Char) : name ++ after ≠ quote :: rest := by
  obtain ⟨notEmpty, allPlain⟩ := isPlain_iff.mp plain
  obtain ⟨c, others, rfl⟩ := List.exists_cons_of_ne_nil notEmpty
  intro equal
  have cPlain := allPlain c (by simp)
  simp only [List.cons_append, List.cons.injEq] at equal
  simp [equal.1] at cPlain

/-- A written name can be told apart from what follows it. -/
theorem escapeChars_append {first second after other : List Char}
    (afterStart : StartsWithDelimiter after) (otherStart : StartsWithDelimiter other)
    (equal : escapeChars first ++ after = escapeChars second ++ other) :
    first = second ∧ after = other := by
  cases firstPlain : isPlain first <;> cases secondPlain : isPlain second
  · rw [escapeChars_of_not_isPlain firstPlain,
      escapeChars_of_not_isPlain secondPlain] at equal
    obtain ⟨c, rest, rfl, -, afterNotQuote⟩ := afterStart
    obtain ⟨d, others, rfl, -, otherNotQuote⟩ := otherStart
    exact Text.doubled_append_mark (by simpa using afterNotQuote)
      (by simpa using otherNotQuote) (by simpa using equal)
  · rw [escapeChars_of_not_isPlain firstPlain, escapeChars_of_isPlain secondPlain] at equal
    exact absurd equal.symm (append_ne_quote_cons secondPlain _ _)
  · rw [escapeChars_of_isPlain firstPlain, escapeChars_of_not_isPlain secondPlain] at equal
    exact absurd equal (append_ne_quote_cons firstPlain _ _)
  · rw [escapeChars_of_isPlain firstPlain, escapeChars_of_isPlain secondPlain] at equal
    have sameName : first = second := by
      rw [← takeWhile_isPlainChar (isPlain_iff.mp firstPlain).2 afterStart, equal,
        takeWhile_isPlainChar (isPlain_iff.mp secondPlain).2 otherStart]
    subst sameName
    exact ⟨rfl, List.append_cancel_left equal⟩

/-- What stands before the name of a descriptor. -/
def Kind.opening : Kind → List Char
  | .typeParameter => ['[']
  | .parameter => ['(']
  | _ => []

def disambiguatorChars (disambiguator : String) : List Char :=
  if disambiguator = "" then [] else escapeChars disambiguator.toList

/-- What stands after the name of a descriptor. -/
def closing (descriptor : Descriptor) : List Char :=
  match descriptor.kind with
  | .nameSpace => ['/']
  | .type => ['#']
  | .term => ['.']
  | .method => '(' :: disambiguatorChars descriptor.disambiguator ++ [')', '.']
  | .typeParameter => [']']
  | .parameter => [')']
  | .metaInfo => [':']

theorem spelling_eq (descriptor : Descriptor) :
    descriptor.spelling = descriptor.kind.opening ++
      escapeChars descriptor.name.toList ++ descriptor.closing := by
  obtain ⟨name, kind, disambiguator, allowed⟩ := descriptor
  cases kind <;>
    simp only [spelling, Kind.opening, closing, disambiguatorChars, List.nil_append,
      List.cons_append, List.append_assoc]
  split <;> simp

theorem closing_startsWithDelimiter (descriptor : Descriptor) (after : List Char) :
    StartsWithDelimiter (descriptor.closing ++ after) := by
  obtain ⟨name, kind, disambiguator, allowed⟩ := descriptor
  cases kind <;> exact ⟨_, _, rfl, by decide, by decide⟩

theorem disambiguatorChars_append {first second : String} {after other : List Char}
    (equal : disambiguatorChars first ++ ')' :: after =
      disambiguatorChars second ++ ')' :: other) :
    first = second ∧ after = other := by
  have delimited (rest : List Char) : StartsWithDelimiter (')' :: rest) :=
    ⟨')', rest, rfl, by decide, by decide⟩
  have notWritten (text rest : List Char) (cs : List Char) :
      escapeChars text ++ cs ≠ ')' :: rest := fun same =>
    (escapeChars_startsWithName text cs).not_startsWithDelimiter (same ▸ delimited rest)
  by_cases firstEmpty : first = "" <;> by_cases secondEmpty : second = ""
  · subst firstEmpty secondEmpty
    simpa [disambiguatorChars] using equal
  · subst firstEmpty
    simp only [disambiguatorChars, secondEmpty, if_true, if_false, List.nil_append] at equal
    exact absurd equal.symm (notWritten _ _ _)
  · subst secondEmpty
    simp only [disambiguatorChars, firstEmpty, if_true, if_false, List.nil_append] at equal
    exact absurd equal (notWritten _ _ _)
  · simp only [disambiguatorChars, firstEmpty, secondEmpty, if_false] at equal
    obtain ⟨sameChars, sameRest⟩ :=
      escapeChars_append (delimited after) (delimited other) equal
    exact ⟨String.toList_injective sameChars, List.cons.inj sameRest |>.2⟩

theorem Kind.opening_eq_nil_or_delimiter (kind : Kind) :
    kind.opening = [] ∨ ∃ c, kind.opening = [c] ∧ isPlainChar c = false ∧ c ≠ quote := by
  cases kind with
  | typeParameter => exact .inr ⟨'[', rfl, by decide, by decide⟩
  | parameter => exact .inr ⟨'(', rfl, by decide, by decide⟩
  | _ => exact .inl rfl

/-- What stands before a name can be told apart from the name. -/
theorem Kind.opening_append {first second : Kind} {after other : List Char}
    (afterStart : StartsWithName after) (otherStart : StartsWithName other)
    (equal : first.opening ++ after = second.opening ++ other) :
    first.opening = second.opening ∧ after = other := by
  rcases first.opening_eq_nil_or_delimiter with firstNil | ⟨c, firstOpening, cDelimits⟩ <;>
    rcases second.opening_eq_nil_or_delimiter with
      secondNil | ⟨d, secondOpening, dDelimits⟩
  · simpa [firstNil, secondNil] using equal
  · rw [firstNil, secondOpening] at equal
    exact absurd ⟨d, other, equal, dDelimits⟩ afterStart.not_startsWithDelimiter
  · rw [firstOpening, secondNil] at equal
    exact absurd ⟨c, after, equal.symm, cDelimits⟩ otherStart.not_startsWithDelimiter
  · simpa [firstOpening, secondOpening] using equal

/-- Of two descriptors with the same opening, what stands after the name tells
the kind and the disambiguator. -/
theorem closing_append {first second : Descriptor} {after other : List Char}
    (sameOpening : first.kind.opening = second.kind.opening)
    (equal : first.closing ++ after = second.closing ++ other) :
    first.kind = second.kind ∧ first.disambiguator = second.disambiguator ∧
      after = other := by
  obtain ⟨firstName, firstKind, firstDisambiguator, firstAllowed⟩ := first
  obtain ⟨secondName, secondKind, secondDisambiguator, secondAllowed⟩ := second
  cases firstKind <;> cases secondKind <;>
    simp [closing, Kind.opening] at sameOpening equal firstAllowed secondAllowed ⊢
  case method.method => simpa using disambiguatorChars_append equal
  -- other kinds have no disambiguator
  all_goals exact ⟨firstAllowed.trans secondAllowed.symm, equal⟩

/-- A written descriptor can be told apart from what follows it. -/
theorem spelling_append {first second : Descriptor} {after other : List Char}
    (equal : first.spelling ++ after = second.spelling ++ other) :
    first = second ∧ after = other := by
  simp only [spelling_eq, List.append_assoc] at equal
  obtain ⟨sameOpening, sameNamed⟩ := Kind.opening_append
    (escapeChars_startsWithName _ _) (escapeChars_startsWithName _ _) equal
  obtain ⟨sameName, sameClosing⟩ := escapeChars_append
    (closing_startsWithDelimiter _ _) (closing_startsWithDelimiter _ _) sameNamed
  obtain ⟨sameKind, sameDisambiguator, sameRest⟩ := closing_append sameOpening sameClosing
  refine ⟨?_, sameRest⟩
  cases first
  cases second
  simp only [Descriptor.mk.injEq]
  exact ⟨String.toList_injective sameName, sameKind, sameDisambiguator⟩

theorem spelling_ne_nil (descriptor : Descriptor) : descriptor.spelling ≠ [] := by
  intro empty
  obtain ⟨c, rest, starts, -⟩ := descriptor.closing_startsWithDelimiter []
  rw [spelling_eq, List.append_eq_nil_iff] at empty
  simp [empty.2] at starts

/-- Descriptors written one after the other, outermost first. -/
def spellings (descriptors : List Descriptor) : List Char :=
  descriptors.flatMap spelling

@[simp]
theorem spellings_nil : spellings [] = [] :=
  rfl

@[simp]
theorem spellings_cons (descriptor : Descriptor) (inner : List Descriptor) :
    spellings (descriptor :: inner) = descriptor.spelling ++ spellings inner :=
  List.flatMap_cons

@[simp]
theorem spellings_append (outer inner : List Descriptor) :
    spellings (outer ++ inner) = spellings outer ++ spellings inner :=
  List.flatMap_append

/-- A beginning of written descriptors that consists of whole descriptors
consists of the first of them. -/
theorem prefix_of_spellings_append {outer inner : List Descriptor} {rest : List Char}
    (equal : spellings outer ++ rest = spellings inner) : outer <+: inner := by
  induction outer generalizing inner with
  | nil => exact List.nil_prefix
  | cons first outer ih =>
      cases inner with
      | nil =>
          simp only [spellings_cons, spellings_nil, List.append_eq_nil_iff] at equal
          exact absurd equal.1.1 first.spelling_ne_nil
      | cons second inner =>
          simp only [spellings_cons, List.append_assoc] at equal
          obtain ⟨sameFirst, sameRest⟩ := spelling_append equal
          exact List.cons_prefix_cons.mpr ⟨sameFirst, ih sameRest⟩

theorem spellings_prefix_iff {outer inner : List Descriptor} :
    spellings outer <+: spellings inner ↔ outer <+: inner := by
  constructor
  · rintro ⟨rest, equal⟩
    exact prefix_of_spellings_append equal
  · rintro ⟨rest, rfl⟩
    exact ⟨spellings rest, (spellings_append outer rest).symm⟩

theorem spellings_injective {first second : List Descriptor}
    (equal : spellings first = spellings second) : first = second := by
  have firstPrefix : first <+: second := spellings_prefix_iff.mp (equal ▸ List.prefix_rfl)
  have secondPrefix : second <+: first := spellings_prefix_iff.mp (equal ▸ List.prefix_rfl)
  exact firstPrefix.eq_of_length_le secondPrefix.length_le

end Descriptor

end SymbolIndex
