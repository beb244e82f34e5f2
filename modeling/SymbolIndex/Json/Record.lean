import SymbolIndex.Entries
import SymbolIndex.Json.Reader

/-!
# Records in JSON

How typed data is written in JSON.  A record is an object whose fields may come
in any order, with fields of other names between them, or an array of its
fields in the order in which they are declared.  A field that is given twice is
an error.  A choice between names is written as the name, or as an object with
the name and `null`.
-/

namespace SymbolIndex

namespace Json

/-- The values given for a field, in the order in which they are given. -/
def valuesOf (name : String) (fields : List (Option String × Json)) : List Json :=
  fields.filterMap fun (key, value) => if key = some name then some value else none

/-- The values of a record's fields in the order of `names`, with `none` for a
field that is left out. -/
def record? (names : List String) : Json → Option (List (Option Json))
  | .array items =>
    if items.length ≤ names.length then
      some (items.map some ++ List.replicate (names.length - items.length) none)
    else none
  | .object fields =>
    if fields.all fun (key, _) => key.isSome then
      names.mapM fun name =>
        match valuesOf name fields with
        | [] => some none
        | [value] => some (some value)
        | _ => none
    else none
  | _ => none

/-- A field that has to be given. -/
def required {α : Type} (decode : Json → Option α) : Option Json → Option α
  | some value => decode value
  | none => none

/-- A field with a value for when it is left out. -/
def defaulting {α : Type} (default : α) (decode : Json → Option α) : Option Json → Option α
  | some value => decode value
  | none => some default

/-- A value that may be absent, which is written as `null`. -/
def nullable {α : Type} (decode : Json → Option α) : Json → Option (Option α)
  | .null => some none
  | value => (decode value).map some

def string? : Json → Option String
  | .text value => value
  | _ => none

def integerBetween? (low high : Int) : Json → Option Int
  | .integer n => if low ≤ n && n ≤ high then some n else none
  | _ => none

def uint32? (value : Json) : Option UInt32 :=
  (integerBetween? 0 (UInt32.size - 1) value).map fun n => UInt32.ofNat n.toNat

def int32? (value : Json) : Option Int32 :=
  (integerBetween? Int32.minValue.toInt Int32.maxValue.toInt value).map Int32.ofInt

def list? {α : Type} (decode : Json → Option α) : Json → Option (List α)
  | .array items => items.mapM decode
  | _ => none

def choice? {α : Type} (choices : List (String × α)) : Json → Option α
  | .text (some name) => choices.lookup name
  | .object [(some name, .null)] => choices.lookup name
  | _ => none

/-- A table from names to values.  The last value of a name counts. -/
def table? {α : Type} (decode : Json → Option α) : Json → Option (List (String × α))
  | .object fields => fields.mapM fun (key, value) => do
    let key ← key
    let value ← decode value
    return (key, value)
  | _ => none

end Json

end SymbolIndex
