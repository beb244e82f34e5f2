/-!
# Named entries

Lists of values with names, read and changed by name.
-/

namespace SymbolIndex

/-- A list of entries with one entry changed, or added at the end. -/
def setEntry {α : Type} (name : String) (value : α) : List (String × α) → List (String × α)
  | [] => [(name, value)]
  | (other, old) :: rest =>
    if name = other then (name, value) :: rest else (other, old) :: setEntry name value rest

/-- The value of a name in a list whose last entry of a name counts. -/
def lastValue? {α : Type} (name : String) (entries : List (String × α)) : Option α :=
  entries.reverse.lookup name

end SymbolIndex
