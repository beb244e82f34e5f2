import SymbolIndex.Toml.Basic
import SymbolIndex.Toml.Fault

/-!
# Tables of a document

The tables of a document while its expressions are read.  A table remembers how
it came about, since that decides what may still be added to it: a table with a
header of its own has one header only, and dotted keys continue tables that
dotted keys have made.
-/

namespace SymbolIndex

namespace Toml

/-- How a table came about. -/
inductive TableOrigin where
  /-- It is named on the way to a table with a header. -/
  | implied
  /-- It has a header. -/
  | headed
  /-- It is named on the way to a key. -/
  | dotted
  deriving DecidableEq, Repr

/-- What a name of a table stands for while a document is read. -/
inductive Node where
  | value (value : Toml)
  | table (origin : TableOrigin) (entries : List (String × Node))
  /-- The tables of an array that has a header for each of them. -/
  | elements (tables : List (List (String × Node)))

abbrev Entries := List (String × Node)

mutual

def Node.toToml : Node → Toml
  | .value value => value
  | .table _ entries => .table (fieldsOf entries)
  | .elements tables => .array (tablesOf tables)

def fieldsOf : List (String × Node) → List (String × Toml)
  | [] => []
  | (name, node) :: rest => (name, node.toToml) :: fieldsOf rest

def tablesOf : List (List (String × Node)) → List Toml
  | [] => []
  | entries :: rest => .table (fieldsOf entries) :: tablesOf rest

end

def changeLast (change : Entries → Except Problem Entries) :
    List Entries → Except Problem (List Entries)
  | [] => .ok []
  | [last] => do return [← change last]
  | first :: rest => do return first :: (← changeLast change rest)

/-- A name with its node changed to what is reached through it. -/
def changeTable (name : String) (change : TableOrigin → Entries → Except Problem Entries)
    (entries : Entries) : Except Problem Entries := do
  match entries.lookup name with
  | none => return setEntry name (.table .implied (← change .implied [])) entries
  | some (.value value) => throw (.notTable name value.kindName)
  | some (.table origin inner) =>
    return setEntry name (.table origin (← change origin inner)) entries
  | some (.elements tables) =>
    return setEntry name (.elements (← changeLast (change .headed) tables)) entries

/-- Adds a value under a dotted key to a table with the given origin.  Tables
named on the way must not have headers, and the last of them is a table that
dotted keys have made.  `table` names the table in which the key stands. -/
def addValue (table : List String) (value : Toml) :
    List String → Entries → Except Problem Entries
  | [], entries => .ok entries
  | [key], entries =>
    if (entries.lookup key).isSome then .error (.duplicateKey key (some table))
    else .ok (entries ++ [(key, .value value)])
  | key :: inner, entries =>
    if (entries.lookup key).isNone then do
      return setEntry key (.table .dotted (← addValue table value inner [])) entries
    else
      changeTable key
        (fun origin entries =>
          if origin = .headed || (inner.length = 1 && origin ≠ .dotted) then
            .error (.duplicateKey key none)
          else addValue table value inner entries)
        entries

def outerTables (path : List String) : List String :=
  path.dropLast

/-- Adds the table of a header, whose path is given once whole and once from
these entries on. -/
def openTable (path : List String) : List String → Entries → Except Problem Entries
  | [], entries => .ok entries
  | [key], entries =>
    match entries.lookup key with
    | none => .ok (entries ++ [(key, .table .headed [])])
    | some (.table .implied inner) => .ok (setEntry key (.table .headed inner) entries)
    | some _ => .error (.duplicateTable key (outerTables path))
  | key :: inner, entries => changeTable key (fun _ => openTable path inner) entries

/-- Adds the table of a header to the array that its path names. -/
def openElement (path : List String) : List String → Entries → Except Problem Entries
  | [], entries => .ok entries
  | [key], entries =>
    match entries.lookup key with
    | none => .ok (entries ++ [(key, .elements [[]])])
    | some (.elements tables) => .ok (setEntry key (.elements (tables ++ [[]])) entries)
    | some _ => .error (.duplicateTable key (outerTables path))
  | key :: inner, entries => changeTable key (fun _ => openElement path inner) entries

def changeAt (change : Entries → Except Problem Entries) :
    List String → Entries → Except Problem Entries
  | [], entries => change entries
  | key :: inner, entries => changeTable key (fun _ => changeAt change inner) entries

end Toml

end SymbolIndex
