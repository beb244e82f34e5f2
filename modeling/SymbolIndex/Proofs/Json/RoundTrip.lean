import SymbolIndex.Json.Record
import SymbolIndex.Proofs.Json.Spelling

/-!
# Reading what was printed

A printed value is one of the spellings of the value, up to parts of it that have no
printed form, so it is read back.
-/

namespace SymbolIndex

namespace Json

/-! ## What is printed -/

mutual

/-- What is left of a value when it is printed: what has no value to print is `null`,
and a name that is no text is empty. -/
def plain : Json → Json
  | .null | .real | .text none => .null
  | .bool value => .bool value
  | .integer n => .integer n
  | .text (some s) => .ofString s
  | .array items => .array (plainItems items)
  | .object fields => .object (plainFields fields)

def plainItems : List Json → List Json
  | [] => []
  | item :: items => plain item :: plainItems items

def plainFields : List (Option String × Json) → List (Option String × Json)
  | [] => []
  | (name, value) :: fields => (some (name.getD ""), plain value) :: plainFields fields

end

/-- An array of values that have nothing to lose loses nothing. -/
theorem plain_array_map {α : Type} {toJson : α → Json} {values : List α}
    (kept : ∀ value ∈ values, (toJson value).plain = toJson value) :
    plain (.array (values.map toJson)) = .array (values.map toJson) := by
  rw [plain]
  congr 1
  induction values with
  | nil => rfl
  | cons value values ih =>
      obtain ⟨first, others⟩ := List.forall_mem_cons.mp kept
      rw [List.map_cons, plainItems, first, ih others]

/-! ## Printing as spelling -/

/-- A character is printed by a letter, by its number, or as it is. -/
theorem escapeChar_cases (c : Char) :
    (∃ letter, escapeChar c = ['\\', letter] ∧ (letter, c) ∈ shortEscapes) ∨
      (escapeChar c =
          ['\\', 'u', '0', '0', hexDigit (c.toNat / 16), hexDigit (c.toNat % 16)] ∧
        c.toNat < 0x20) ∨
      (escapeChar c = [c] ∧ c ≠ '"' ∧ c ≠ '\\' ∧ 0x20 ≤ c.toNat) := by
  by_cases short : c ∈ ['"', '\\', '\x08', '\t', '\n', '\x0c', '\r']
  · refine .inl ?_
    simp only [List.mem_cons, List.not_mem_nil, or_false] at short
    rcases short with rfl | rfl | rfl | rfl | rfl | rfl | rfl <;> exact ⟨_, rfl, by decide⟩
  · simp only [List.mem_cons, List.not_mem_nil, or_false, not_or] at short
    obtain ⟨notQuote, notBackslash, notBack, notTab, notLine, notPage, notReturn⟩ := short
    refine .inr ?_
    by_cases small : c.toNat < 0x20
    · refine .inl ⟨?_, small⟩
      simp [escapeChar, *]
    · refine .inr ⟨?_, notQuote, notBackslash, Nat.le_of_not_lt small⟩
      simp [escapeChar, *]

/-- A printed character is the spelling of a piece that stands for it. -/
theorem exists_piece (c : Char) :
    ∃ piece, SpellsPiece piece (escapeChar c) ∧
      ∀ pieces cs, StandFor pieces cs → StandFor (piece :: pieces) (c :: cs) := by
  rcases escapeChar_cases c with ⟨letter, printed, escape⟩ | ⟨printed, small⟩ |
    ⟨printed, notQuote, notBackslash, large⟩
  · rw [printed]
    exact ⟨.char c, .short escape, fun _ _ => .char⟩
  · have zero : IsHex 0 '0' := ⟨by decide, .inl rfl⟩
    have high : IsHex (c.toNat / 16) (hexDigit (c.toNat / 16)) := ⟨by omega, .inl rfl⟩
    have low : IsHex (c.toNat % 16) (hexDigit (c.toNat % 16)) := ⟨by omega, .inl rfl⟩
    have code : ((0 * 16 + 0) * 16 + c.toNat / 16) * 16 + c.toNat % 16 = c.toNat := by
      omega
    have spelled := SpellsPiece.unit zero zero high low
    rw [code] at spelled
    rw [printed]
    exact ⟨.unit c.toNat, spelled, fun _ _ => .unit (by omega)⟩
  · rw [printed]
    exact ⟨.char c, .plain notQuote notBackslash large, fun _ _ => .char⟩

theorem exists_pieces (cs : List Char) :
    ∃ pieces, SpellsPieces pieces (cs.flatMap escapeChar) ∧ StandFor pieces cs := by
  induction cs with
  | nil => exact ⟨[], .nil, .nil⟩
  | cons c cs ih =>
      obtain ⟨piece, spelled, stands⟩ := exists_piece c
      obtain ⟨pieces, others, stand⟩ := ih
      exact ⟨piece :: pieces, .cons spelled others, stands pieces cs stand⟩

theorem spellsToken_literal (s : String) : SpellsToken (.scalar (.ofString s)) (literal s) := by
  obtain ⟨pieces, spelled, stand⟩ := exists_pieces s.toList
  exact .text spelled stand

section Spells

variable {rest : List Char} {tokens : List Token}

theorem spells_newLine (spells : Spells tokens rest) (depth : Nat) :
    Spells tokens (newLine depth ++ rest) := by
  have spaces (count : Nat) : Spells tokens (List.replicate count ' ' ++ rest) := by
    induction count with
    | zero => exact spells
    | succ count ih => exact .space (by decide) ih
  exact .space (by decide) (spaces _)

theorem spells_printName (name : Option String) (spells : Spells tokens rest) :
    Spells (.scalar (.ofString (name.getD "")) :: .colon :: tokens) (printName name ++ rest) := by
  rw [printName, List.append_assoc]
  exact .token (spellsToken_literal _) (.sign .colon (.space (by decide) spells))

end Spells

mutual

/-- What is printed is a spelling of what is left of the value. -/
theorem spells_printAt (value : Json) (depth : Nat) {rest : List Char} {tokens : List Token}
    (spells : Spells tokens rest) :
    Spells (value.plain.tokens ++ tokens) (printAt depth value ++ rest) := by
  match value with
  | .null | .real | .text none => exact .token .null spells
  | .bool true => exact .token .yes spells
  | .bool false => exact .token .no spells
  | .integer n => exact .token (.integer n) spells
  | .text (some s) => exact .token (spellsToken_literal s) spells
  | .array [] => exact .sign .openBracket (.sign .closeBracket spells)
  | .array (item :: items) =>
      rw [printAt, plain, plainItems, Json.tokens]
      simp only [List.cons_append, List.append_assoc]
      refine .sign .openBracket (spells_newLine ?_ _)
      exact spells_printAt item (depth + 1) (spells_printItems items (depth + 1) depth spells)
  | .object [] => exact .sign .openBrace (.sign .closeBrace spells)
  | .object ((name, value) :: fields) =>
      rw [printAt, plain, plainFields, Json.tokens]
      simp only [List.cons_append, List.append_assoc]
      refine .sign .openBrace (spells_newLine (spells_printName _ ?_) _)
      exact spells_printAt value (depth + 1) (spells_printFields fields (depth + 1) depth spells)

theorem spells_printItems (items : List Json) (depth outer : Nat) {rest : List Char}
    {tokens : List Token} (spells : Spells tokens rest) :
    Spells (itemTokens (plainItems items) ++ tokens)
      (printItems depth items ++ (newLine outer ++ (']' :: rest))) := by
  match items with
  | [] => exact spells_newLine (.sign .closeBracket spells) _
  | item :: items =>
      rw [printItems, plainItems, itemTokens]
      simp only [List.cons_append, List.append_assoc]
      refine .sign .comma (spells_newLine ?_ _)
      exact spells_printAt item depth (spells_printItems items depth outer spells)

theorem spells_printFields (fields : List (Option String × Json)) (depth outer : Nat)
    {rest : List Char} {tokens : List Token} (spells : Spells tokens rest) :
    Spells (fieldTokens (plainFields fields) ++ tokens)
      (printFields depth fields ++ (newLine outer ++ ('\x7d' :: rest))) := by
  match fields with
  | [] => exact spells_newLine (.sign .closeBrace spells) _
  | (name, value) :: fields =>
      rw [printFields, plainFields, fieldTokens]
      simp only [List.cons_append, List.append_assoc]
      refine .sign .comma (spells_newLine (spells_printName _ ?_) _)
      exact spells_printAt value depth (spells_printFields fields depth outer spells)

end

theorem isSpelling_print (value : Json) : IsSpelling value.print value.plain := by
  have alone := spells_printAt value 0 .done
  rw [List.append_nil, List.append_nil] at alone
  rwa [IsSpelling, print, String.toList_ofList]

@[simp]
theorem string?_ofString (s : String) : string? (.ofString s) = some s := rfl

/-- What is printed is read back. -/
theorem read?_print (value : Json) : read? value.print = some value.plain :=
  read?_of_isSpelling (isSpelling_print value)

end Json

end SymbolIndex
