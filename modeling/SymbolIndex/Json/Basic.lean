/-!
# JSON values

Values of the JSON data format as this library needs them.  A number matters
only as an integer, so one with a fraction or an exponent, and `-0`, is just
`real`.  Half of a surrogate pair in a string literal stands for no character;
such a literal is kept as `none`, since it does no harm in a value that is not
looked at.
-/

namespace SymbolIndex

inductive Json where
  | null
  | bool (value : Bool)
  | integer (value : Int)
  /-- A number that is not written as an integer. -/
  | real
  | text (value : Option String)
  | array (items : List Json)
  | object (fields : List (Option String × Json))
  deriving Repr, Inhabited

namespace Json

def ofString (s : String) : Json := .text (some s)

def ofFields (fields : List (String × Json)) : Json :=
  .object (fields.map fun (name, value) => (some name, value))

end Json

end SymbolIndex
