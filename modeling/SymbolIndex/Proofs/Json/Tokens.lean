import SymbolIndex.Json.Reader

/-!
# The tokens of a value

Every value is the value of one sequence of tokens.  A text that is cut into these tokens
is read as the value.
-/

namespace SymbolIndex

namespace Json

/-! ## Cutting a text into tokens -/

/-- A token does not start with white space. -/
theorem visible_of_token? {cs rest : List Char} {token : Token}
    (read : token? cs = some (token, rest)) :
    ∃ first more, cs = first :: more ∧ isSpace first = false := by
  cases cs with
  | nil => cases read
  | cons first more =>
      refine ⟨first, more, rfl, Bool.eq_false_iff.mpr fun blank => ?_⟩
      simp only [isSpace, Bool.or_eq_true, beq_iff_eq] at blank
      rcases blank with ((rfl | rfl) | rfl) | rfl <;> cases read

/-- Whether a text is cut into some tokens. -/
inductive Lexes : List Char → List Token → Prop
  | done : Lexes [] []
  | space {c : Char} {rest : List Char} {tokens : List Token} (blank : isSpace c = true)
      (lexes : Lexes rest tokens) : Lexes (c :: rest) tokens
  | token {cs rest : List Char} {token : Token} {tokens : List Token}
      (read : token? cs = some (token, rest)) (shorter : rest.length < cs.length)
      (lexes : Lexes rest tokens) : Lexes cs (token :: tokens)

theorem length_lt_append {cs : List Char} (notEmpty : cs ≠ []) (rest : List Char) :
    rest.length < (cs ++ rest).length := by
  have positive := List.length_pos_iff.mpr notEmpty
  rw [List.length_append]
  omega

theorem Lexes.length_le {cs : List Char} {tokens : List Token} (lexes : Lexes cs tokens) :
    tokens.length ≤ cs.length := by
  induction lexes with
  | done => exact Nat.le_refl _
  | space blank lexes ih => exact Nat.le_succ_of_le ih
  | token read shorter lexes ih => exact Nat.lt_of_le_of_lt ih shorter

theorem tokensWithin_of_lexes {cs : List Char} {tokens : List Token} (lexes : Lexes cs tokens)
    {fuel : Nat} (enough : tokens.length < fuel) : tokensWithin fuel cs = some tokens := by
  obtain ⟨fuel, rfl⟩ := Nat.exists_eq_add_one_of_ne_zero (Nat.ne_zero_of_lt enough)
  induction lexes generalizing fuel with
  | done => rfl
  | space blank lexes ih =>
      have onwards := ih fuel enough
      rw [tokensWithin] at onwards ⊢
      rwa [List.dropWhile_cons_of_pos blank]
  | @token cs rest token tokens read shorter lexes ih =>
      obtain ⟨first, more, rfl, visible⟩ := visible_of_token? read
      have later := Nat.lt_of_succ_lt_succ enough
      obtain ⟨fuel, rfl⟩ := Nat.exists_eq_add_one_of_ne_zero (Nat.ne_zero_of_lt later)
      rw [tokensWithin, List.dropWhile_cons_of_neg (by simp [visible])]
      simp [read, ih fuel later]

theorem tokens?_of_lexes {s : String} {tokens : List Token} (lexes : Lexes s.toList tokens) :
    tokens? s = some tokens :=
  tokensWithin_of_lexes lexes (Nat.lt_succ_of_le lexes.length_le)

/-! ## Tokens in place of a value -/

mutual

/-- The tokens that a value is read from. -/
def tokens : Json → List Token
  | .array [] => [.openBracket, .closeBracket]
  | .array (item :: items) => .openBracket :: (tokens item ++ itemTokens items)
  | .object [] => [.openBrace, .closeBrace]
  | .object ((name, value) :: fields) =>
    .openBrace :: .scalar (.text name) :: .colon :: (tokens value ++ fieldTokens fields)
  | value => [.scalar value]

/-- The tokens of the items after the first one, and of the bracket after them. -/
def itemTokens : List Json → List Token
  | [] => [.closeBracket]
  | item :: items => .comma :: (tokens item ++ itemTokens items)

/-- The tokens of the fields after the first one, and of the brace after them. -/
def fieldTokens : List (Option String × Json) → List Token
  | [] => [.closeBrace]
  | (name, value) :: fields =>
    .comma :: .scalar (.text name) :: .colon :: (tokens value ++ fieldTokens fields)

end

theorem exists_tokens (value : Json) :
    ∃ first more, tokens value = first :: more ∧ first ≠ .closeBracket := by
  match value with
  | .null | .real | .bool _ | .integer _ | .text _ => exact ⟨_, _, rfl, nofun⟩
  | .array [] | .array (_ :: _) | .object [] | .object (_ :: _) => exact ⟨_, _, rfl, nofun⟩

theorem valueWithin_openBracket (fuel : Nat) (item : Json) (rest : List Token) :
    valueWithin (fuel + 1) (.openBracket :: (tokens item ++ rest)) =
      (itemsWithin fuel (tokens item ++ rest)).map
        fun (items, after) => (.array items, after) := by
  obtain ⟨first, more, equal, notClose⟩ := exists_tokens item
  rw [equal, List.cons_append, valueWithin]
  intro others isClose
  exact absurd (List.cons.inj isClose).1 notClose

theorem length_tokens_pos (value : Json) : 0 < (tokens value).length := by
  obtain ⟨first, more, equal, -⟩ := exists_tokens value
  rw [equal]
  exact Nat.succ_pos _

mutual

theorem valueWithin_tokens (value : Json) (fuel : Nat) (rest : List Token)
    (enough : (tokens value).length ≤ fuel) :
    valueWithin fuel (tokens value ++ rest) = some (value, rest) := by
  match fuel, enough with
  | 0, enough => exact absurd (length_tokens_pos value) (by omega)
  | fuel + 1, enough =>
    match value, enough with
    | .null, _ | .real, _ | .bool _, _ | .integer _, _ | .text _, _ => rfl
    | .array [], _ | .object [], _ => rfl
    | .array (item :: items), enough =>
        simp only [tokens, List.length_cons, List.length_append] at enough
        rw [tokens, List.cons_append, List.append_assoc, valueWithin_openBracket,
          itemsWithin_itemTokens item items fuel rest (by omega)]
        rfl
    | .object ((name, value) :: fields), enough =>
        simp only [tokens, List.length_cons, List.length_append] at enough
        have read := fieldsWithin_fieldTokens name value fields fuel rest (by omega)
        rw [tokens]
        simp only [List.cons_append, List.append_assoc]
        rw [valueWithin, read]
        · rfl
        · nofun

theorem itemsWithin_itemTokens (item : Json) (items : List Json) (fuel : Nat) (rest : List Token)
    (enough : (tokens item).length + (itemTokens items).length ≤ fuel) :
    itemsWithin fuel (tokens item ++ (itemTokens items ++ rest)) =
      some (item :: items, rest) := by
  match fuel, enough with
  | 0, enough => exact absurd (length_tokens_pos item) (by omega)
  | fuel + 1, enough =>
    match items, enough with
    | [], enough =>
        rw [itemsWithin, valueWithin_tokens item fuel _ (Nat.le_of_succ_le_succ enough)]
        rfl
    | next :: items, enough =>
        simp only [itemTokens, List.length_cons, List.length_append] at enough
        rw [itemsWithin, valueWithin_tokens item fuel _ (by omega)]
        have others := itemsWithin_itemTokens next items fuel rest (by omega)
        simp only [itemTokens, List.cons_append, List.append_assoc, others]
        rfl

theorem fieldsWithin_fieldTokens (name : Option String) (value : Json)
    (fields : List (Option String × Json)) (fuel : Nat) (rest : List Token)
    (enough : (tokens value).length + (fieldTokens fields).length + 1 ≤ fuel) :
    fieldsWithin fuel (.scalar (.text name) :: .colon ::
        (tokens value ++ (fieldTokens fields ++ rest))) =
      some ((name, value) :: fields, rest) := by
  match fuel, enough with
  | fuel + 1, enough =>
    match fields, enough with
    | [], enough =>
        rw [fieldsWithin, valueWithin_tokens value fuel _ (by omega)]
        rfl
    | (next, later) :: fields, enough =>
        simp only [fieldTokens, List.length_cons, List.length_append] at enough
        rw [fieldsWithin, valueWithin_tokens value fuel _ (by omega)]
        have others := fieldsWithin_fieldTokens next later fields fuel rest (by omega)
        simp only [fieldTokens, List.cons_append, List.append_assoc, others]
        rfl

end

/-- A text that is cut into the tokens of a value is read as this value. -/
theorem read?_of_lexes {s : String} {value : Json} (lexes : Lexes s.toList (tokens value)) :
    read? s = some value := by
  have whole := valueWithin_tokens value _ [] (Nat.le_succ _)
  rw [List.append_nil] at whole
  simp [read?, tokens?_of_lexes lexes, whole]

end Json

end SymbolIndex
