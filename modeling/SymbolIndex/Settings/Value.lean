import SymbolIndex.Entries
import SymbolIndex.Toml.Basic

/-!
# Values of settings

Settings as they come from a file or from the environment, before it is known
what they mean.  Settings from several sources are put over one another: tables
name by name, and everything else as a whole.
-/

namespace SymbolIndex

inductive SettingValue where
  | text (value : String)
  | integer (value : Int)
  | real
  | bool (value : Bool)
  | list (items : List SettingValue)
  | table (entries : List (String × SettingValue))
  deriving Repr, Inhabited

namespace SettingValue

/-- The table that stands for a date or time. -/
def ofMoment (written : String) : SettingValue :=
  table [("$__toml_private_datetime", text written)]

mutual

def ofToml : Toml → SettingValue
  | .text value => text value
  | .integer value => integer value
  | .real => real
  | .bool value => bool value
  | .moment written => ofMoment written
  | .array items => list (itemsOfToml items)
  | .table fields => table (entriesOfToml fields)

def itemsOfToml : List Toml → List SettingValue
  | [] => []
  | item :: rest => ofToml item :: itemsOfToml rest

def entriesOfToml : List (String × Toml) → List (String × SettingValue)
  | [] => []
  | (name, value) :: rest => (name, ofToml value) :: entriesOfToml rest

end

mutual

/-- A value put over another one. -/
def overlaid (below : SettingValue) : SettingValue → SettingValue
  | table entries =>
    match below with
    | table old => table (entriesOverlaid old entries)
    | _ => table entries
  | value => value

def entriesOverlaid (below : List (String × SettingValue)) :
    List (String × SettingValue) → List (String × SettingValue)
  | [] => below
  | (name, value) :: rest =>
    let merged :=
      match below.lookup name with
      | some old => overlaid old value
      | none => value
    entriesOverlaid (setEntry name merged below) rest

end

/-- A value below tables with the given names. -/
def nested (value : SettingValue) : List String → SettingValue
  | [] => value
  | name :: rest => table [(name, nested value rest)]

end SettingValue

end SymbolIndex
