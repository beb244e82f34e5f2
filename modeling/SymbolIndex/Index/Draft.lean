import SymbolIndex.Index.Basic

/-!
# Drafts of an index

An index is put together from contributions.  The last metadata counts, and
documents are kept in the order in which they come.
-/

namespace SymbolIndex

/-- What one piece of work adds to an index. -/
structure Contribution where
  metadata : Option Metadata := none
  documents : List Document := []
  deriving DecidableEq

namespace Contribution

def ofMetadata (metadata : Metadata) : Contribution := { metadata := some metadata }

def ofDocument (document : Document) : Contribution := { documents := [document] }

def isEmpty (part : Contribution) : Bool :=
  part.metadata.isNone && part.documents.isEmpty

end Contribution

/-- An index that is being put together. -/
structure IndexDraft where
  metadata : Option Metadata := none
  documents : List Document := []
  deriving DecidableEq

namespace IndexDraft

def merge (draft : IndexDraft) (part : Contribution) : IndexDraft where
  metadata := part.metadata <|> draft.metadata
  documents := draft.documents ++ part.documents

/-- The finished index, unless it lacks metadata. -/
def finish? (draft : IndexDraft) : Option Index :=
  draft.metadata.map fun metadata => ⟨some metadata, draft.documents⟩

end IndexDraft

end SymbolIndex
