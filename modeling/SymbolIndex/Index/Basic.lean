/-!
# The index

The index of a project in the SCIP data model: what the index says about
itself, and one document for each source file with the occurrences of symbols
in it and what is known of the symbols that it defines.
-/

namespace SymbolIndex

structure ToolInfo where
  name : String := ""
  version : String := ""
  arguments : List String := []
  deriving DecidableEq, Repr

/-- What an index says about itself. -/
structure Metadata where
  version : Int32 := 0
  toolInfo : Option ToolInfo := none
  projectRoot : String := ""
  textDocumentEncoding : Int32 := 0
  deriving DecidableEq, Repr

structure Occurrence where
  range : List Int32 := []
  symbol : String := ""
  symbolRoles : Int32 := 0
  deriving DecidableEq, Repr

/-- What is known of a symbol. -/
structure SymbolInformation where
  symbol : String := ""
  documentation : List String := []
  displayName : String := ""
  deriving DecidableEq, Repr

/-- The part of an index about one source file. -/
structure Document where
  language : String := ""
  relativePath : String := ""
  occurrences : List Occurrence := []
  symbols : List SymbolInformation := []
  deriving DecidableEq, Repr

structure Index where
  metadata : Option Metadata := none
  documents : List Document := []
  deriving DecidableEq, Repr

end SymbolIndex
