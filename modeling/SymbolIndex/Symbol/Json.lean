import SymbolIndex.Json.Record
import SymbolIndex.Symbol.Ecosystem

/-!
# Ecosystems in JSON

How naming conventions are written.  A normalization rule is an object that
names the rule in its field `rule`, beside the characters of the rule if it has
any.
-/

namespace SymbolIndex

namespace Json

def char? : Json → Option Char
  | .text (some value) =>
    match value.toList with
    | [c] => some c
    | _ => none
  | _ => none

end Json

namespace Normalization

def ofName? (name : String) (separator replacement : Option Json) : Option Normalization :=
  match name with
  | "verbatim" => some .verbatim
  | "first_separator" => do
    let separator ← Json.required Json.char? separator
    let replacement ← Json.required Json.char? replacement
    return .firstSeparator separator replacement
  | _ => none

def ofJson? : Json → Option Normalization
  | .object fields => do
    match Json.valuesOf "rule" fields with
    | [.text (some "verbatim")] => some .verbatim
    | [.text (some name)] =>
      match ← Json.record? ["from", "to"] (.object fields) with
      | [separator, replacement] => ofName? name separator replacement
      | _ => none
    | _ => none
  | .array [.text (some "verbatim")] => some .verbatim
  | .array [.text (some "first_separator"), separator, replacement] =>
    ofName? "first_separator" (some separator) (some replacement)
  | _ => none

def toJson (rule : Normalization) : Json :=
  match rule with
  | verbatim => .ofFields [("rule", .ofString "verbatim")]
  | firstSeparator separator replacement =>
    .ofFields [
      ("rule", .ofString "first_separator"),
      ("from", .ofString (String.singleton separator)),
      ("to", .ofString (String.singleton replacement))]

end Normalization

namespace Ecosystem

def ofJson? (value : Json) : Option Ecosystem := do
  match ← value.record? ["scheme", "normalization"] with
  | [scheme, normalization] =>
    let scheme ← Json.required Json.string? scheme
    let normalization ← Json.required Normalization.ofJson? normalization
    return ⟨scheme, normalization⟩
  | _ => none

end Ecosystem

end SymbolIndex
