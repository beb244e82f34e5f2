import SymbolIndex.Json.Token

/-!
# Reading JSON

The grammar of JSON over its tokens.  `read?` accepts one value with nothing
after it: no trailing commas, no comments, no byte order mark.
-/

namespace SymbolIndex

namespace Json

mutual

/-- The value at the start of some tokens, and the tokens after it. -/
def valueWithin : Nat → List Token → Option (Json × List Token)
  | 0, _ => none
  | _ + 1, [] => none
  | _ + 1, .scalar value :: rest => some (value, rest)
  | _ + 1, .openBracket :: .closeBracket :: rest => some (.array [], rest)
  | fuel + 1, .openBracket :: rest =>
    (itemsWithin fuel rest).map fun (items, after) => (.array items, after)
  | _ + 1, .openBrace :: .closeBrace :: rest => some (.object [], rest)
  | fuel + 1, .openBrace :: rest =>
    (fieldsWithin fuel rest).map fun (fields, after) => (.object fields, after)
  | _, _ => none

/-- The items of an array from one item on, and the tokens after its bracket. -/
def itemsWithin : Nat → List Token → Option (List Json × List Token)
  | 0, _ => none
  | fuel + 1, tokens =>
    match valueWithin fuel tokens with
    | some (item, .closeBracket :: rest) => some ([item], rest)
    | some (item, .comma :: rest) =>
      (itemsWithin fuel rest).map fun (items, after) => (item :: items, after)
    | _ => none

/-- The fields of an object from one field on, and the tokens after its brace. -/
def fieldsWithin : Nat → List Token → Option (List (Option String × Json) × List Token)
  | 0, _ => none
  | fuel + 1, .scalar (.text name) :: .colon :: tokens =>
    match valueWithin fuel tokens with
    | some (value, .closeBrace :: rest) => some ([(name, value)], rest)
    | some (value, .comma :: rest) =>
      (fieldsWithin fuel rest).map fun (fields, after) => ((name, value) :: fields, after)
    | _ => none
  | _, _ => none

end

def read? (s : String) : Option Json := do
  let tokens ← tokens? s
  match ← valueWithin (tokens.length + 1) tokens with
  | (value, []) => some value
  | _ => none

end Json

end SymbolIndex
