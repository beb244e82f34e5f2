import SymbolIndex.Json.Printer
import SymbolIndex.Proofs.Json.Literals
import SymbolIndex.Proofs.Json.Tokens
import Mathlib.Data.List.Chain
import Mathlib.Data.List.TakeWhile

/-!
# The spellings of a value

All the ways to write a value: white space may stand around every token, a character of
a text may be written as itself or as an escape, and a number that is no integer may have
a fraction, an exponent or both.  Every spelling of a value is read as this value.
-/

namespace SymbolIndex

namespace Json

/-! ## Texts -/

/-- The letters of escapes, with the characters that they stand for. -/
def shortEscapes : List (Char × Char) :=
  [('"', '"'), ('\\', '\\'), ('/', '/'), ('b', '\x08'), ('f', '\x0c'), ('n', '\n'), ('r', '\r'),
    ('t', '\t')]

/-- Whether a character is the hexadecimal digit of a number, small or capital. -/
def IsHex (value : Nat) (c : Char) : Prop :=
  value < 16 ∧ (c = hexDigit value ∨ c = (hexDigit value).toUpper)

/-- How a piece of a text may be written. -/
inductive SpellsPiece : Piece → List Char → Prop
  | plain {c : Char} (notQuote : c ≠ '"') (notBackslash : c ≠ '\\')
      (printable : 0x20 ≤ c.toNat) : SpellsPiece (.char c) [c]
  | short {letter c : Char} (escape : (letter, c) ∈ shortEscapes) :
      SpellsPiece (.char c) ['\\', letter]
  | unit {w x y z : Nat} {a b c d : Char} (first : IsHex w a) (second : IsHex x b)
      (third : IsHex y c) (fourth : IsHex z d) :
      SpellsPiece (.unit (((w * 16 + x) * 16 + y) * 16 + z)) ['\\', 'u', a, b, c, d]

inductive SpellsPieces : List Piece → List Char → Prop
  | nil : SpellsPieces [] []
  | cons {piece : Piece} {pieces : List Piece} {written rest : List Char}
      (first : SpellsPiece piece written) (others : SpellsPieces pieces rest) :
      SpellsPieces (piece :: pieces) (written ++ rest)

/-- The characters that pieces stand for.  A character that is too large for one unit is
written as a pair of units. -/
inductive StandFor : List Piece → List Char → Prop
  | nil : StandFor [] []
  | char {c : Char} {pieces : List Piece} {cs : List Char} (others : StandFor pieces cs) :
      StandFor (.char c :: pieces) (c :: cs)
  | unit {c : Char} {pieces : List Piece} {cs : List Char} (small : c.toNat < 0x10000)
      (others : StandFor pieces cs) : StandFor (.unit c.toNat :: pieces) (c :: cs)
  | pair {c : Char} {pieces : List Piece} {cs : List Char} (large : 0x10000 ≤ c.toNat)
      (others : StandFor pieces cs) :
      StandFor (.unit (0xD800 + (c.toNat - 0x10000) / 0x400) ::
        .unit (0xDC00 + (c.toNat - 0x10000) % 0x400) :: pieces) (c :: cs)

theorem hexDigit?_of_isHex {value : Nat} {c : Char} (hex : IsHex value c) :
    Text.hexDigit? c = some value := by
  have all : ∀ value < 16, Text.hexDigit? (hexDigit value) = some value ∧
      Text.hexDigit? (hexDigit value).toUpper = some value := by decide
  obtain ⟨small, rfl | rfl⟩ := hex
  · exact (all value small).1
  · exact (all value small).2

theorem literalPieces?_of_spellsPiece {piece : Piece} {written : List Char}
    (spelled : SpellsPiece piece written) (rest : List Char) :
    literalPieces? (written ++ rest) =
      (literalPieces? rest).map fun (pieces, after) => (piece :: pieces, after) := by
  cases spelled with
  | plain notQuote notBackslash printable =>
      exact literalPieces?_plain notQuote notBackslash printable rest
  | @short letter c escape =>
      have all : ∀ escape ∈ shortEscapes, escapedChar? escape.1 = some escape.2 := by decide
      exact literalPieces?_escapedChar (all (letter, c) escape) rest
  | unit first second third fourth =>
      simp only [List.cons_append, List.nil_append, literalPieces?, hexUnit?,
        hexDigit?_of_isHex first, hexDigit?_of_isHex second, hexDigit?_of_isHex third,
        hexDigit?_of_isHex fourth, Option.bind_eq_bind, Option.bind_some, Option.pure_def]
      cases literalPieces? rest <;> rfl

theorem literalPieces?_of_spells {pieces : List Piece} {written : List Char}
    (spelled : SpellsPieces pieces written) (rest : List Char) :
    literalPieces? (written ++ '"' :: rest) = some (pieces, rest) := by
  induction spelled with
  | nil => rfl
  | cons first others ih =>
      rw [List.append_assoc, literalPieces?_of_spellsPiece first, ih, Option.map_some]

/-- A character that fits into one unit is no half of a pair. -/
theorem not_surrogate_toNat {c : Char} (small : c.toNat < 0x10000) :
    isHighSurrogate c.toNat = false ∧ isLowSurrogate c.toNat = false := by
  have valid : c.toNat < 0xD800 ∨ 0xDFFF < c.toNat ∧ c.toNat < 0x110000 := c.valid
  simp only [isHighSurrogate, isLowSurrogate, Bool.and_eq_false_imp, decide_eq_true_eq,
    decide_eq_false_iff_not]
  omega

theorem surrogatePair_of_large {c : Char} (large : 0x10000 ≤ c.toNat) :
    isHighSurrogate (0xD800 + (c.toNat - 0x10000) / 0x400) = true ∧
      isLowSurrogate (0xDC00 + (c.toNat - 0x10000) % 0x400) = true ∧
      surrogatePair (0xD800 + (c.toNat - 0x10000) / 0x400)
        (0xDC00 + (c.toNat - 0x10000) % 0x400) = c := by
  have valid : c.toNat < 0xD800 ∨ 0xDFFF < c.toNat ∧ c.toNat < 0x110000 := c.valid
  have number : 0x10000 + (0xD800 + (c.toNat - 0x10000) / 0x400 - 0xD800) * 0x400 +
      (0xDC00 + (c.toNat - 0x10000) % 0x400 - 0xDC00) = c.toNat := by
    omega
  refine ⟨?_, ?_, ?_⟩
  · simp only [isHighSurrogate, Bool.and_eq_true, decide_eq_true_eq]
    omega
  · simp only [isLowSurrogate, Bool.and_eq_true, decide_eq_true_eq]
    omega
  · rw [surrogatePair, number, Char.ofNat_toNat]

theorem charsOfPieces?_of_standFor {pieces : List Piece} {cs : List Char}
    (stand : StandFor pieces cs) : charsOfPieces? pieces = some cs := by
  induction stand with
  | nil => rfl
  | char others ih => rw [charsOfPieces?, ih, Option.map_some]
  | unit small others ih =>
      obtain ⟨notHigh, notLow⟩ := not_surrogate_toNat small
      rw [charsOfPieces?_unit notHigh notLow, ih, Char.ofNat_toNat, Option.map_some]
  | pair large others ih =>
      obtain ⟨high, low, equal⟩ := surrogatePair_of_large large
      simp only [charsOfPieces?, high, low, if_true, ih, equal, Option.map_some]

theorem unit_lt_of_spells {pieces : List Piece} {written : List Char}
    (spelled : SpellsPieces pieces written) {code : Nat} (member : .unit code ∈ pieces) :
    code < 0x10000 := by
  induction spelled with
  | nil => cases member
  | cons first others ih =>
      rcases List.mem_cons.mp member with rfl | member
      · cases first with
        | unit first second third fourth =>
            have := first.1
            have := second.1
            have := third.1
            have := fourth.1
            omega
      · exact ih member

theorem toNat_ofNat {code : Nat} (valid : code.isValidChar) : (Char.ofNat code).toNat = code := by
  rw [Char.ofNat, dif_pos valid]
  rfl

theorem standFor_unit {code : Nat} {pieces : List Piece} {cs : List Char} (small : code < 0x10000)
    (notHigh : isHighSurrogate code = false) (notLow : isLowSurrogate code = false)
    (others : StandFor pieces cs) : StandFor (.unit code :: pieces) (Char.ofNat code :: cs) := by
  have valid : code.isValidChar := by
    simp only [isHighSurrogate, isLowSurrogate, Bool.and_eq_false_imp, decide_eq_true_eq,
      decide_eq_false_iff_not] at notHigh notLow
    simp only [Nat.isValidChar]
    omega
  have number := toNat_ofNat valid
  have stand := StandFor.unit (number.symm ▸ small) others
  rwa [number] at stand

theorem standFor_pair {high low : Nat} {pieces : List Piece} {cs : List Char}
    (isHigh : isHighSurrogate high = true) (isLow : isLowSurrogate low = true)
    (others : StandFor pieces cs) :
    StandFor (.unit high :: .unit low :: pieces) (surrogatePair high low :: cs) := by
  simp only [isHighSurrogate, isLowSurrogate, Bool.and_eq_true, decide_eq_true_eq] at isHigh isLow
  have valid : (0x10000 + (high - 0xD800) * 0x400 + (low - 0xDC00)).isValidChar := by
    simp only [Nat.isValidChar]
    omega
  have number := toNat_ofNat valid
  rw [← surrogatePair] at number
  have large : 0x10000 ≤ (surrogatePair high low).toNat := by
    omega
  have stand := StandFor.pair large others
  have highAgain : 0xD800 + ((surrogatePair high low).toNat - 0x10000) / 0x400 = high := by
    omega
  have lowAgain : 0xDC00 + ((surrogatePair high low).toNat - 0x10000) % 0x400 = low := by
    omega
  rwa [highAgain, lowAgain] at stand

/-- Pieces stand for the characters that they are read as. -/
theorem standFor_of_charsOfPieces? {pieces : List Piece} {cs : List Char}
    (units : ∀ code, .unit code ∈ pieces → code < 0x10000)
    (chars : charsOfPieces? pieces = some cs) : StandFor pieces cs := by
  fun_induction charsOfPieces? pieces generalizing cs with
  | case1 =>
      cases chars
      exact .nil
  | case2 c rest ih =>
      obtain ⟨others, read, rfl⟩ := Option.map_eq_some_iff.mp chars
      exact .char (ih (fun code member => units code (List.mem_cons_of_mem _ member)) read)
  | case4 code single =>
      simp only [Bool.or_eq_true, not_or, Bool.not_eq_true] at single
      cases chars
      exact standFor_unit (units code List.mem_cons_self) single.1 single.2 .nil
  | case5 code next rest high low ih =>
      obtain ⟨others, read, rfl⟩ := Option.map_eq_some_iff.mp chars
      refine standFor_pair high low (ih (fun code member => units code ?_) read)
      exact List.mem_cons_of_mem _ (List.mem_cons_of_mem _ member)
  | case8 code next rest notHigh notLow ih =>
      obtain ⟨others, read, rfl⟩ := Option.map_eq_some_iff.mp chars
      rw [Bool.not_eq_true] at notHigh notLow
      exact standFor_unit (units code List.mem_cons_self) notHigh notLow
        (ih (fun code member => units code (List.mem_cons_of_mem _ member)) read)
  | case10 code c rest single ih =>
      obtain ⟨others, read, rfl⟩ := Option.map_eq_some_iff.mp chars
      simp only [Bool.or_eq_true, not_or, Bool.not_eq_true] at single
      exact standFor_unit (units code List.mem_cons_self) single.1 single.2
        (ih (fun code member => units code (List.mem_cons_of_mem _ member)) read)
  | case3 | case6 | case7 | case9 => cases chars

/-! ## Numbers that are no integers -/

/-- Whether characters are a point with digits after it. -/
def IsFraction (cs : List Char) : Prop :=
  ∃ digits, cs = '.' :: digits ∧ digits ≠ [] ∧ ∀ c ∈ digits, c.isDigit = true

/-- Whether characters are the mark of an exponent with digits after it, which may have a
sign. -/
def IsExponent (cs : List Char) : Prop :=
  ∃ mark sign digits, cs = mark :: (sign ++ digits) ∧ mark ∈ ['e', 'E'] ∧
    sign ∈ [[], ['+'], ['-']] ∧ digits ≠ [] ∧ ∀ c ∈ digits, c.isDigit = true

/-- What makes a number after its integer digits no integer. -/
inductive IsTail : List Char → Prop
  | fraction {cs : List Char} (isFraction : IsFraction cs) : IsTail cs
  | exponent {cs : List Char} (isExponent : IsExponent cs) : IsTail cs
  | both {first second : List Char} (isFraction : IsFraction first)
      (isExponent : IsExponent second) : IsTail (first ++ second)

/-- How a number that is no integer may be written. -/
inductive SpellsReal : List Char → Prop
  | negativeZero : SpellsReal ['-', '0']
  | number {sign tail : List Char} (whole : Nat) (isSign : sign ∈ [[], ['-']])
      (isTail : IsTail tail) : SpellsReal (sign ++ (Nat.toDigits 10 whole ++ tail))

theorem endsNumber_stops {rest : List Char} (ends : EndsNumber rest) :
    ∀ c ∈ rest.head?, c.isDigit = false :=
  fun c first => (ends c first).1

theorem numberTail?_exponent {cs rest : List Char} (isExponent : IsExponent cs)
    (ends : EndsNumber rest) : numberTail? (cs ++ rest) = some (true, rest) := by
  obtain ⟨mark, sign, digits, rfl, isMark, isSign, nonempty, areDigits⟩ := isExponent
  have dropped := (takeWhile_isDigit_append areDigits (endsNumber_stops ends)).2
  obtain ⟨first, more, rfl⟩ := List.exists_cons_of_ne_nil nonempty
  have digit := areDigits first List.mem_cons_self
  have notPlus : first ≠ '+' := by
    rintro rfl
    cases digit
  have notMinus : first ≠ '-' := by
    rintro rfl
    cases digit
  rw [List.cons_append] at dropped
  simp only [List.mem_cons, List.not_mem_nil, or_false] at isMark isSign
  rcases isMark with rfl | rfl <;> rcases isSign with rfl | rfl | rfl <;>
    simp [numberTail?, notPlus, notMinus, dropped, digit]

theorem numberTail?_fraction {cs tail rest : List Char} {isReal : Bool} (isFraction : IsFraction cs)
    (stops : ∀ c ∈ tail.head?, c.isDigit = false) (notPoint : ∀ c ∈ tail.head?, c ≠ '.')
    (read : numberTail? tail = some (isReal, rest)) :
    numberTail? (cs ++ tail) = some (true, rest) := by
  obtain ⟨digits, rfl, nonempty, areDigits⟩ := isFraction
  obtain ⟨taken, dropped⟩ := takeWhile_isDigit_append areDigits stops
  cases tail with
  | nil =>
      cases read
      rw [List.append_nil] at taken dropped ⊢
      simp [numberTail?, taken, dropped, nonempty]
  | cons c more =>
      have point := notPoint c rfl
      rw [List.cons_append]
      by_cases mark : c = 'e' ∨ c = 'E'
      · obtain ⟨follow, -, left⟩ : _ ∧ isReal = true ∧ _ := by
          simpa [numberTail?, point, mark] using read
        simpa [numberTail?, taken, dropped, nonempty, mark] using And.intro follow left
      · obtain ⟨-, rfl⟩ : false = isReal ∧ c :: more = rest := by
          simpa [numberTail?, point, mark] using read
        simp [numberTail?, taken, dropped, nonempty, mark]

/-- What makes a number no integer is read up to where the number ends. -/
theorem numberTail?_of_isTail {tail rest : List Char} (isTail : IsTail tail)
    (ends : EndsNumber rest) : numberTail? (tail ++ rest) = some (true, rest) := by
  cases isTail with
  | fraction isFraction =>
      exact numberTail?_fraction isFraction (endsNumber_stops ends)
        (fun c first => (ends c first).2.1) (numberTail?_of_endsNumber ends)
  | exponent isExponent => exact numberTail?_exponent isExponent ends
  | both isFraction isExponent =>
      have read := numberTail?_exponent isExponent ends
      obtain ⟨mark, sign, digits, rfl, isMark, -⟩ := isExponent
      rw [List.append_assoc]
      refine numberTail?_fraction isFraction ?_ ?_ read
      all_goals
        rintro c ⟨⟩
        simp only [List.mem_cons, List.not_mem_nil, or_false] at isMark
        rcases isMark with rfl | rfl <;> decide

theorem isTail_stops {tail : List Char} (isTail : IsTail tail) (rest : List Char) :
    ∀ c ∈ (tail ++ rest).head?, c.isDigit = false := by
  have point {cs : List Char} (isFraction : IsFraction cs) (rest : List Char) :
      ∀ c ∈ (cs ++ rest).head?, c.isDigit = false := by
    obtain ⟨digits, rfl, -⟩ := isFraction
    rintro c ⟨⟩
    decide
  cases isTail with
  | fraction isFraction => exact point isFraction rest
  | exponent isExponent =>
      obtain ⟨mark, sign, digits, rfl, isMark, -⟩ := isExponent
      rintro c ⟨⟩
      simp only [List.mem_cons, List.not_mem_nil, or_false] at isMark
      rcases isMark with rfl | rfl <;> decide
  | both isFraction isExponent =>
      rw [List.append_assoc]
      exact point isFraction _

theorem token?_minus (cs : List Char) :
    token? ('-' :: cs) = (number? true cs).map fun (value, after) => (.scalar value, after) := by
  rw [token?]

theorem token?_of_spellsReal {written rest : List Char} (spelled : SpellsReal written)
    (ends : EndsNumber rest) : token? (written ++ rest) = some (.scalar .real, rest) := by
  cases spelled with
  | negativeZero =>
      have read := number?_toDigits ends true 0
      rw [List.cons_append, token?_minus]
      change (number? true (Nat.toDigits 10 0 ++ rest)).map _ = _
      rw [read]
      rfl
  | @number sign tail whole isSign isTail =>
      have read (negative : Bool) := number?_toDigits_append (isTail_stops isTail rest)
        (numberTail?_of_isTail isTail ends) negative whole
      simp only [Bool.true_or, if_true] at read
      simp only [List.mem_cons, List.not_mem_nil, or_false] at isSign
      rw [List.append_assoc, List.append_assoc]
      rcases isSign with rfl | rfl
      · obtain ⟨first, more, digits, digit⟩ := exists_toDigits whole
        specialize read false
        rw [digits, List.cons_append] at read
        rw [digits, List.nil_append, List.cons_append, token?_of_isDigit digit, read]
        rfl
      · rw [List.cons_append, List.nil_append, token?_minus, read]
        rfl

/-! ## Tokens -/

/-- How a token may be written. -/
inductive SpellsToken : Token → List Char → Prop
  | openBrace : SpellsToken .openBrace ['\x7b']
  | closeBrace : SpellsToken .closeBrace ['\x7d']
  | openBracket : SpellsToken .openBracket ['[']
  | closeBracket : SpellsToken .closeBracket [']']
  | colon : SpellsToken .colon [':']
  | comma : SpellsToken .comma [',']
  | null : SpellsToken (.scalar .null) "null".toList
  | yes : SpellsToken (.scalar (.bool true)) "true".toList
  | no : SpellsToken (.scalar (.bool false)) "false".toList
  | integer (n : Int) : SpellsToken (.scalar (.integer n)) (toString n).toList
  | real {written : List Char} (spelled : SpellsReal written) : SpellsToken (.scalar .real) written
  | text {s : String} {pieces : List Piece} {written : List Char}
      (spelled : SpellsPieces pieces written) (stand : StandFor pieces s.toList) :
      SpellsToken (.scalar (.text (some s))) ('"' :: (written ++ ['"']))
  /-- A literal with half of a pair in it. -/
  | noText {pieces : List Piece} {written : List Char} (spelled : SpellsPieces pieces written)
      (nothing : ∀ cs, ¬StandFor pieces cs) :
      SpellsToken (.scalar (.text none)) ('"' :: (written ++ ['"']))

namespace Token

def isScalar : Token → Bool
  | scalar _ => true
  | _ => false

end Token

theorem token?_literal_of_spells {pieces : List Piece} {written : List Char}
    (spelled : SpellsPieces pieces written) (rest : List Char) :
    token? ('"' :: (written ++ ['"']) ++ rest) = some (.scalar (textOfPieces pieces), rest) := by
  rw [List.cons_append, List.append_assoc, token?]
  rw [List.cons_append, List.nil_append, literalPieces?_of_spells spelled, Option.map_some]

/-- Every spelling of a token is read as the token. -/
theorem token?_of_spells {token : Token} {written rest : List Char}
    (spelled : SpellsToken token written) (ends : token.isScalar = true → EndsNumber rest) :
    token? (written ++ rest) = some (token, rest) := by
  cases spelled with
  | openBrace | closeBrace | openBracket | closeBracket | colon | comma | null | yes | no => rfl
  | integer n => exact token?_integer n (ends rfl)
  | real spelled => exact token?_of_spellsReal spelled (ends rfl)
  | text spelled stand =>
      rw [token?_literal_of_spells spelled, textOfPieces, charsOfPieces?_of_standFor stand,
        Option.map_some, String.ofList_toList]
  | @noText pieces written spelled nothing =>
      have none : charsOfPieces? pieces = none := by
        refine Option.eq_none_iff_forall_ne_some.mpr fun cs read => nothing cs ?_
        exact standFor_of_charsOfPieces? (fun code => unit_lt_of_spells spelled) read
      rw [token?_literal_of_spells spelled, textOfPieces, none, Option.map_none]

theorem ne_nil_of_spells {token : Token} {written : List Char}
    (spelled : SpellsToken token written) : written ≠ [] := by
  rintro rfl
  have read := @token?_of_spells token [] [] spelled fun _ => nofun
  cases read

/-- How tokens may be written with white space around them. -/
inductive Spells : List Token → List Char → Prop
  | done : Spells [] []
  | space {tokens : List Token} {c : Char} {rest : List Char} (blank : c ∈ [' ', '\t', '\n', '\r'])
      (spells : Spells tokens rest) : Spells tokens (c :: rest)
  | token {token : Token} {tokens : List Token} {written rest : List Char}
      (spelled : SpellsToken token written) (spells : Spells tokens rest) :
      Spells (token :: tokens) (written ++ rest)

/-- A token that is written as one character. -/
theorem Spells.sign {token : Token} {tokens : List Token} {c : Char} {rest : List Char}
    (spelled : SpellsToken token [c]) (spells : Spells tokens rest) :
    Spells (token :: tokens) (c :: rest) :=
  .token spelled spells

/-- Whether no scalar follows another one, so that every number ends where it should. -/
def Separated (tokens : List Token) : Prop :=
  tokens.IsChain fun first second => (first.isScalar && second.isScalar) = false

theorem endsNumber_of_spells {tokens : List Token} {written : List Char}
    (spells : Spells tokens written) (structural : ∀ token ∈ tokens.head?, token.isScalar = false) :
    EndsNumber written := by
  cases spells with
  | done => nofun
  | space blank spells =>
      rintro c ⟨⟩
      simp only [List.mem_cons, List.not_mem_nil, or_false] at blank
      rcases blank with rfl | rfl | rfl | rfl <;> decide
  | @token token tokens written rest spelled spells =>
      have noScalar := structural token rfl
      cases spelled with
      | openBrace | closeBrace | openBracket | closeBracket | colon | comma =>
          rintro c ⟨⟩
          decide
      | null | yes | no | integer | real | text | noText => cases noScalar

theorem lexes_of_spells {tokens : List Token} {written : List Char}
    (separated : Separated tokens) (spells : Spells tokens written) : Lexes written tokens := by
  induction spells with
  | done => exact .done
  | @space tokens c rest blank spells ih =>
      refine .space ?_ (ih separated)
      simp only [List.mem_cons, List.not_mem_nil, or_false] at blank
      rcases blank with rfl | rfl | rfl | rfl <;> rfl
  | @token token tokens written rest spelled spells ih =>
      have ends (scalar : token.isScalar = true) : EndsNumber rest := by
        refine endsNumber_of_spells spells fun next first => ?_
        have apart := separated.rel_head? first
        rwa [scalar, Bool.true_and] at apart
      have shorter := length_lt_append (ne_nil_of_spells spelled) rest
      exact .token (token?_of_spells spelled ends) shorter (ih separated.tail)

theorem separated_cons {token : Token} {tokens : List Token} (structural : token.isScalar = false)
    (others : Separated tokens) : Separated (token :: tokens) :=
  others.cons fun next _ => by rw [structural, Bool.false_and]

theorem separated_scalar {value : Json} {tokens : List Token} (others : Separated tokens)
    (structural : ∀ token ∈ tokens.head?, token.isScalar = false) :
    Separated (.scalar value :: tokens) :=
  others.cons fun next first => by rw [structural next first, Bool.and_false]

theorem structural_itemTokens (items : List Json) (rest : List Token) :
    ∀ token ∈ (itemTokens items ++ rest).head?, token.isScalar = false := by
  cases items <;> rintro token ⟨⟩ <;> rfl

theorem structural_fieldTokens (fields : List (Option String × Json)) (rest : List Token) :
    ∀ token ∈ (fieldTokens fields ++ rest).head?, token.isScalar = false := by
  rcases fields with _ | ⟨⟨name, value⟩, fields⟩ <;> rintro token ⟨⟩ <;> rfl

mutual

/-- In the tokens of a value no scalar follows another one. -/
theorem separated_tokens (value : Json) {rest : List Token} (others : Separated rest)
    (structural : ∀ token ∈ rest.head?, token.isScalar = false) :
    Separated (tokens value ++ rest) := by
  match value with
  | .null | .bool _ | .integer _ | .real | .text _ => exact separated_scalar others structural
  | .array [] | .object [] => exact separated_cons rfl (separated_cons rfl others)
  | .array (item :: items) =>
      rw [tokens, List.cons_append, List.append_assoc]
      exact separated_cons rfl (separated_tokens item (separated_itemTokens items others)
        (structural_itemTokens items rest))
  | .object ((name, value) :: fields) =>
      rw [tokens]
      simp only [List.cons_append, List.append_assoc]
      refine separated_cons rfl (separated_scalar (separated_cons rfl ?_) ?_)
      · exact separated_tokens value (separated_fieldTokens fields others)
          (structural_fieldTokens fields rest)
      · rintro token ⟨⟩
        rfl

theorem separated_itemTokens (items : List Json) {rest : List Token} (others : Separated rest) :
    Separated (itemTokens items ++ rest) := by
  match items with
  | [] => exact separated_cons rfl others
  | item :: items =>
      rw [itemTokens, List.cons_append, List.append_assoc]
      exact separated_cons rfl (separated_tokens item (separated_itemTokens items others)
        (structural_itemTokens items rest))

theorem separated_fieldTokens (fields : List (Option String × Json)) {rest : List Token}
    (others : Separated rest) : Separated (fieldTokens fields ++ rest) := by
  match fields with
  | [] => exact separated_cons rfl others
  | (name, value) :: fields =>
      rw [fieldTokens]
      simp only [List.cons_append, List.append_assoc]
      refine separated_cons rfl (separated_scalar (separated_cons rfl ?_) ?_)
      · exact separated_tokens value (separated_fieldTokens fields others)
          (structural_fieldTokens fields rest)
      · rintro token ⟨⟩
        rfl

end

/-- Whether a text is a spelling of a value. -/
def IsSpelling (text : String) (value : Json) : Prop :=
  Spells (tokens value) text.toList

/-- Every spelling of a value is read as this value. -/
theorem read?_of_isSpelling {text : String} {value : Json} (spelling : IsSpelling text value) :
    read? text = some value := by
  have separated := separated_tokens value List.IsChain.nil nofun
  rw [List.append_nil] at separated
  exact read?_of_lexes (lexes_of_spells separated spelling)

end Json

end SymbolIndex
