import SymbolIndex.Index.Codec
import SymbolIndex.Machine.Replace

/-!
# Stored indexes

An index is kept in a file in its written form.  A file is replaced at once, so
that no reader finds half of an index.
-/

namespace SymbolIndex

inductive StoreError where
  | io (path : FilePath) (error : FileError)
  /-- The index is larger than a message may be. -/
  | encode
  | decode (path : FilePath)
  | persist (path : FilePath) (error : FileError)
  deriving DecidableEq

namespace StoreError

def message : StoreError → String
  | io path error => s!"IO error on {path.text}: {error.message}"
  | encode => "Failed to encode index: message too large"
  | decode path => s!"Failed to decode index {path.text}: malformed message"
  | persist path error => s!"Failed to replace {path.text}: {error.message}"

def chain (error : StoreError) : List String :=
  match error with
  | io _ cause => [error.message, cause.message]
  | encode | decode _ | persist _ _ => [error.message]

end StoreError

namespace Index

def storeTarget : String := "symdex::storage::persistence"

/-- How many bytes a message may have. -/
def maxSize : Nat := 2147483647

def toBytes (index : Index) : ByteArray :=
  index.encode.toByteArray

def ofBytes? (bytes : ByteArray) : Option Index :=
  decode? bytes.data.toList

def save (path : FilePath) (index : Index) : Attempt StoreError Unit := do
  let bytes := index.toBytes
  if bytes.size > maxSize then throw .encode
  else
    let wrap : ReplaceError → StoreError := fun
      | .prepare error => .io path error
      | .publish error => .persist path error
    Attempt.ofSession wrap (Session.replaceFile path bytes)
    Session.log .debug storeTarget
      s!"[storage] wrote {index.documents.length} documents ({bytes.size} bytes) to {path.text}"

def load (path : FilePath) : Attempt StoreError Index := do
  let bytes ← Attempt.ofSession (.io path) (Session.readFile path)
  match ofBytes? bytes with
  | some index => return index
  | none => throw (.decode path)

end Index

end SymbolIndex
