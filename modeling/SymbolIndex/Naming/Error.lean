import SymbolIndex.Analysis.Basic
import SymbolIndex.Package.Registry

/-!
# Naming errors

Why the entities of an analysis cannot be given symbols.
-/

namespace SymbolIndex

/-- Why an analysis cannot be named.  Every error tells the path of the analyzed
file. -/
inductive NamingError where
  | symbol (path : String) (cause : SymbolFault)
  | attribution (path : String) (cause : AttributionConflict)
  | unknownEntity (path : String) (entity : EntityId)
  | duplicateEntity (path : String) (entity : EntityId)
  | invalidRange (path : String) (entity : EntityId) (range : List Int32)
  deriving DecidableEq

def showNumbers (numbers : List Int32) : String :=
  "[" ++ String.intercalate ", " (numbers.map fun n => toString n.toInt) ++ "]"

namespace NamingError

def message : NamingError → String
  | symbol path cause => s!"Failed to name entity in {path}: {cause.message}"
  | attribution path cause => s!"Failed to attribute {path}: {cause.message}"
  | unknownEntity path entity => s!"Unknown entity {entity.toNat} referenced in {path}"
  | duplicateEntity path entity => s!"Entity {entity.toNat} declared twice in {path}"
  | invalidRange path entity range =>
    s!"Invalid range {showNumbers range} for entity {entity.toNat} in {path}"

def chain (error : NamingError) : List String :=
  match error with
  | symbol _ cause => [error.message, cause.message]
  | attribution _ cause => [error.message, cause.message]
  | unknownEntity _ _ | duplicateEntity _ _ | invalidRange _ _ _ => [error.message]

end NamingError

end SymbolIndex
