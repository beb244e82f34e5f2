/-!
# Project identity

The name and version that qualify the symbols of a project's own files.
-/

namespace SymbolIndex

/-- The name and version of a project. -/
structure ProjectIdentity where
  name : String
  version : String
  deriving DecidableEq, Repr

end SymbolIndex
