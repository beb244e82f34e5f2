import SymbolIndex.Json.Token
import Mathlib.Data.List.Basic

/-!
# Characters of texts, and numbers

What is read from the ways to write a character in a text literal, and from the digits of
a number that is followed by nothing that goes on with it.
-/

namespace SymbolIndex

namespace Json

open Text (hexDigit?)

/-! ## Texts -/

theorem literalPieces?_escapedChar {letter c : Char} (escaped : escapedChar? letter = some c)
    (rest : List Char) :
    literalPieces? ('\\' :: letter :: rest) =
      (literalPieces? rest).map fun (pieces, after) => (.char c :: pieces, after) := by
  have letterNotU : letter ≠ 'u' := by
    rintro rfl
    cases escaped
  rw [literalPieces?]
  · rw [escaped]
    cases literalPieces? rest <;> rfl
  · intro a b c d more isU
    exact fun _ => absurd isU letterNotU

theorem literalPieces?_plain {c : Char} (notQuote : c ≠ '"') (notBackslash : c ≠ '\\')
    (printable : 0x20 ≤ c.toNat) (rest : List Char) :
    literalPieces? (c :: rest) =
      (literalPieces? rest).map fun (pieces, after) => (.char c :: pieces, after) := by
  have isPlain : ¬(decide (c.toNat < 0x20) || c == '\\') = true := by
    simp [notBackslash, printable]
  rw [literalPieces?, if_neg isPlain]
  · cases literalPieces? rest <;> rfl
  · exact notQuote
  · intro a b c d more isBackslash
    exact fun _ => absurd isBackslash notBackslash
  · intro letter more isBackslash
    exact fun _ => absurd isBackslash notBackslash

/-- A unit that is no half of a pair stands for a character whatever follows. -/
theorem charsOfPieces?_unit {code : Nat} (notHigh : isHighSurrogate code = false)
    (notLow : isLowSurrogate code = false) (pieces : List Piece) :
    charsOfPieces? (.unit code :: pieces) =
      (charsOfPieces? pieces).map (Char.ofNat code :: ·) := by
  rcases pieces with _ | ⟨next | next, pieces⟩ <;> simp [charsOfPieces?, notHigh, notLow]

/-! ## Integers -/

/-- Whether a text does not go on with a number that stands before it. -/
def EndsNumber (rest : List Char) : Prop :=
  ∀ c ∈ rest.head?, c.isDigit = false ∧ c ≠ '.' ∧ c ≠ 'e' ∧ c ≠ 'E'

theorem hexDigit?_of_isDigit {c : Char} (digit : c.isDigit = true) :
    hexDigit? c = some (c.toNat - 48) := by
  simp only [Char.isDigit, Bool.and_eq_true, decide_eq_true_eq] at digit
  have low : 48 ≤ c.toNat := digit.1
  have high : c.toNat ≤ 57 := digit.2
  simp [hexDigit?, low, high]

theorem natOfDigits_of_isDigit {digits : List Char} (areDigits : ∀ c ∈ digits, c.isDigit = true) :
    Text.natOfDigits 10 digits = Nat.ofDigitChars 10 digits 0 := by
  have folded (start : Nat) :
      (digits.filterMap hexDigit?).foldl (fun number digit => number * 10 + digit) start =
        Nat.ofDigitChars 10 digits start := by
    induction digits generalizing start with
    | nil => rfl
    | cons c digits ih =>
        obtain ⟨digit, others⟩ := List.forall_mem_cons.mp areDigits
        rw [List.filterMap_cons_some (hexDigit?_of_isDigit digit), List.foldl_cons, ih others,
          Nat.ofDigitChars_cons]
        congr 1
        rw [Nat.mul_comm]
        rfl
  exact folded 0

theorem natOfDigits_toDigits (n : Nat) : Text.natOfDigits 10 (Nat.toDigits 10 n) = n := by
  rw [natOfDigits_of_isDigit fun c member =>
    Nat.isDigit_of_mem_toDigits (by decide) (by decide) member]
  exact Nat.ofDigitChars_ten_toDigits

theorem head?_toDigits {n : Nat} (positive : 0 < n) :
    ∃ first more, Nat.toDigits 10 n = first :: more ∧ first ≠ '0' := by
  induction n using Nat.strongRecOn with
  | ind n ih =>
      rw [Nat.toDigits_eq_if (by decide)]
      by_cases small : n < 10
      · rw [if_pos small]
        refine ⟨n.digitChar, [], rfl, ?_⟩
        have all : ∀ digit < 10, 0 < digit → digit.digitChar ≠ '0' := by decide
        exact all n small positive
      · obtain ⟨first, more, digits, notZero⟩ := ih (n / 10) (by omega) (by omega)
        rw [if_neg small, digits]
        exact ⟨first, more ++ [(n % 10).digitChar], rfl, notZero⟩

theorem numberTail?_of_endsNumber {rest : List Char} (ends : EndsNumber rest) :
    numberTail? rest = some (false, rest) := by
  cases rest with
  | nil => rfl
  | cons c rest =>
      obtain ⟨-, notDot, notSmall, notLarge⟩ := ends c rfl
      simp [numberTail?, notDot, notSmall, notLarge]

/-- Digits are read up to where they end. -/
theorem takeWhile_isDigit_append {digits rest : List Char}
    (areDigits : ∀ c ∈ digits, c.isDigit = true) (stops : ∀ c ∈ rest.head?, c.isDigit = false) :
    (digits ++ rest).takeWhile Char.isDigit = digits ∧
      (digits ++ rest).dropWhile Char.isDigit = rest := by
  have none : rest.takeWhile Char.isDigit = [] ∧ rest.dropWhile Char.isDigit = rest := by
    cases rest with
    | nil => exact ⟨rfl, rfl⟩
    | cons c rest => simp [stops c rfl]
  rw [List.takeWhile_append_of_pos areDigits, List.dropWhile_append_of_pos areDigits, none.1,
    none.2, List.append_nil]
  exact ⟨rfl, rfl⟩

/-- A number is read from its digits and from what may follow them. -/
theorem number?_toDigits_append {tail rest : List Char} {isReal : Bool}
    (stops : ∀ c ∈ tail.head?, c.isDigit = false) (read : numberTail? tail = some (isReal, rest))
    (negative : Bool) (n : Nat) :
    number? negative (Nat.toDigits 10 n ++ tail) =
      some (if isReal || (negative && n == 0) then .real
        else .integer (if negative then -n else n), rest) := by
  rcases Nat.eq_zero_or_pos n with rfl | positive
  · have zero : Text.natOfDigits 10 ['0'] = 0 := rfl
    cases negative <;> cases isReal <;> simp [number?, read, zero]
  · obtain ⟨first, more, digits, notZero⟩ := head?_toDigits positive
    have areDigits : ∀ c ∈ Nat.toDigits 10 n, c.isDigit = true := fun c member =>
      Nat.isDigit_of_mem_toDigits (by decide) (by decide) member
    obtain ⟨taken, dropped⟩ := takeWhile_isDigit_append areDigits stops
    have value := natOfDigits_toDigits n
    rw [digits, List.cons_append] at taken dropped
    rw [digits] at value
    rw [digits, List.cons_append]
    cases negative <;> cases isReal <;>
    · simp only [number?, Option.bind_eq_bind]
      split
      · rename_i others same
        cases same
        exact absurd rfl notZero
      · simp [taken, dropped, read, value, Nat.ne_of_gt positive]

theorem number?_toDigits {rest : List Char} (ends : EndsNumber rest) (negative : Bool) (n : Nat) :
    number? negative (Nat.toDigits 10 n ++ rest) =
      some (if negative && n == 0 then .real else .integer (if negative then -n else n), rest) :=
  number?_toDigits_append (fun c first => (ends c first).1) (numberTail?_of_endsNumber ends)
    negative n

theorem exists_toDigits (n : Nat) :
    ∃ first more, Nat.toDigits 10 n = first :: more ∧ first.isDigit = true := by
  obtain ⟨first, more, digits⟩ := List.exists_cons_of_ne_nil (@Nat.toDigits_ne_nil n 10)
  refine ⟨first, more, digits, Nat.isDigit_of_mem_toDigits (b := 10) (n := n) ?_ ?_ ?_⟩
  · decide
  · decide
  · rw [digits]
    exact List.mem_cons_self

theorem token?_of_isDigit {c : Char} (digit : c.isDigit = true) (rest : List Char) :
    token? (c :: rest) =
      (number? false (c :: rest)).map fun (value, after) => (.scalar value, after) := by
  unfold token?
  split
  case h_12 => rfl
  all_goals
    rename_i same
    cases same
    cases digit

/-- An integer is read up to where it ends. -/
theorem token?_integer (n : Int) {rest : List Char} (ends : EndsNumber rest) :
    token? ((toString n).toList ++ rest) = some (.scalar (.integer n), rest) := by
  have printed : toString n = n.repr := rfl
  rw [printed, Int.repr_eq_if]
  split
  case isTrue nonnegative =>
    obtain ⟨value, rfl⟩ := Int.eq_ofNat_of_zero_le nonnegative
    rw [Int.toNat_natCast, Nat.repr_eq_ofList_toDigits, String.toList_ofList]
    have read := number?_toDigits ends false value
    obtain ⟨first, more, digits, digit⟩ := exists_toDigits value
    rw [digits, List.cons_append] at read
    rw [digits, List.cons_append, token?_of_isDigit digit, read]
    rfl
  case isFalse negative =>
    have notNothing : ((-n).toNat == 0) = false := by
      simp only [beq_eq_false_iff_ne]
      omega
    have read := number?_toDigits ends true (-n).toNat
    have value : -((-n).toNat : Int) = n := by
      omega
    rw [Nat.repr_eq_ofList_toDigits, String.toList_append, String.toList_ofList,
      String.toList_ofList]
    simp only [notNothing, Bool.and_false, Bool.false_eq_true, if_false, if_true, value] at read
    change token? ('-' :: (Nat.toDigits 10 (-n).toNat ++ rest)) = _
    rw [token?, read]
    rfl

end Json

end SymbolIndex
