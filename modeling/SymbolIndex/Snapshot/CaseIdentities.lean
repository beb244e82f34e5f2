import SymbolIndex.Json.Record
import SymbolIndex.Project.Identity

/-!
# Identities of cases

A suite may fix the identity of the projects in its cases in a JSON file, with
a default and with special identities for some cases.
-/

namespace SymbolIndex

namespace ProjectIdentity

def ofJson? (value : Json) : Option ProjectIdentity := do
  match ← value.record? ["name", "version"] with
  | [name, version] =>
    let name ← Json.required Json.string? name
    let version ← Json.required Json.string? version
    return ⟨name, version⟩
  | _ => none

end ProjectIdentity

structure CaseIdentities where
  default : ProjectIdentity
  /-- Identities of single cases, of which the last for a case counts. -/
  special : List (String × ProjectIdentity)
  deriving DecidableEq, Repr

namespace CaseIdentities

def ofJson? (value : Json) : Option CaseIdentities := do
  match ← value.record? ["default", "special"] with
  | [default, special] =>
    let default ← Json.required ProjectIdentity.ofJson? default
    let special ← Json.defaulting [] (Json.table? ProjectIdentity.ofJson?) special
    return ⟨default, special⟩
  | _ => none

def read? (text : String) : Option CaseIdentities :=
  (Json.read? text).bind ofJson?

def identityOf (identities : CaseIdentities) (case : String) : ProjectIdentity :=
  (lastValue? case identities.special).getD identities.default

end CaseIdentities

end SymbolIndex
