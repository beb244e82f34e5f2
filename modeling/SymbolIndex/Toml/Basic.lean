import SymbolIndex.Entries

/-!
# TOML values

Values of the TOML data format as this library needs them.  Nothing is done
with a number that is not an integer, and a date or time is kept as written.
-/

namespace SymbolIndex

inductive Toml where
  | text (value : String)
  | integer (value : Int)
  | real
  | bool (value : Bool)
  /-- A date, a time, or both. -/
  | moment (written : String)
  | array (items : List Toml)
  | table (fields : List (String × Toml))
  deriving Repr, Inhabited

namespace Toml

def field? (name : String) : Toml → Option Toml
  | table fields => fields.lookup name
  | _ => none

def text? : Toml → Option String
  | text value => some value
  | _ => none

/-- What kind of value this is, as it is told in messages. -/
def kindName : Toml → String
  | text _ => "string"
  | integer _ => "integer"
  | real => "float"
  | bool _ => "boolean"
  | moment _ => "datetime"
  | array _ => "array"
  | table _ => "inline table"

end Toml

end SymbolIndex
