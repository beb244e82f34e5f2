import SymbolIndex.Index.Basic
import SymbolIndex.Index.Wire

/-!
# The written form of an index

Which field of which message holds what.  Fields that hold nothing are not
written.  Of a field that should come once the last one counts; a list is what
all its fields hold.  Fields of the data model that this library does not use
are read only to see that they are well formed.
-/

namespace SymbolIndex

open Wire (Field bytesField textField int32Field packedField)

namespace ToolInfo

def encode (tool : ToolInfo) : Bytes :=
  textField 1 tool.name ++ textField 2 tool.version ++
    tool.arguments.flatMap fun argument => bytesField 3 (Wire.textBytes argument)

/-- A tool after one more field. -/
def readField (tool : ToolInfo) : Field → Option ToolInfo
  | ⟨1, .bytes b⟩ => do return { tool with name := ← Wire.text? b }
  | ⟨2, .bytes b⟩ => do return { tool with version := ← Wire.text? b }
  | ⟨3, .bytes b⟩ => do return { tool with arguments := tool.arguments ++ [← Wire.text? b] }
  | _ => some tool

def decode? (bytes : Bytes) : Option ToolInfo :=
  Wire.message? {} readField bytes

end ToolInfo

namespace Metadata

def encode (metadata : Metadata) : Bytes :=
  let tool :=
    match metadata.toolInfo with
    | some tool => bytesField 2 tool.encode
    | none => []
  int32Field 1 metadata.version ++ tool ++ textField 3 metadata.projectRoot ++
    int32Field 4 metadata.textDocumentEncoding

def readField (metadata : Metadata) : Field → Option Metadata
  | ⟨1, .varint n⟩ => do return { metadata with version := ← Wire.int32? n }
  | ⟨2, .bytes b⟩ => do return { metadata with toolInfo := some (← ToolInfo.decode? b) }
  | ⟨3, .bytes b⟩ => do return { metadata with projectRoot := ← Wire.text? b }
  | ⟨4, .varint n⟩ => do return { metadata with textDocumentEncoding := ← Wire.int32? n }
  | _ => some metadata

def decode? (bytes : Bytes) : Option Metadata :=
  Wire.message? {} readField bytes

end Metadata

/-- Reads a diagnostic, of which nothing is kept. -/
def checkDiagnosticField (_ : Unit) : Field → Option Unit
  | ⟨1, .varint n⟩ | ⟨5, .varint n⟩ => (Wire.int32? n).map fun _ => ()
  | ⟨2, .bytes b⟩ | ⟨3, .bytes b⟩ | ⟨4, .bytes b⟩ => (Wire.text? b).map fun _ => ()
  | ⟨5, .bytes b⟩ => (Wire.packed? b).map fun _ => ()
  | _ => some ()

/-- Reads a relationship between symbols, of which nothing is kept. -/
def checkRelationshipField (_ : Unit) : Field → Option Unit
  | ⟨1, .bytes b⟩ => (Wire.text? b).map fun _ => ()
  | ⟨2, .varint n⟩ | ⟨3, .varint n⟩ | ⟨4, .varint n⟩ | ⟨5, .varint n⟩ =>
    (Wire.narrow? n).map fun _ => ()
  | _ => some ()

namespace Occurrence

def encode (occurrence : Occurrence) : Bytes :=
  packedField 1 occurrence.range ++ textField 2 occurrence.symbol ++
    int32Field 3 occurrence.symbolRoles

/-- An occurrence after one more field, below which messages may be nested
`depth` deep. -/
def readField (depth : Nat) (occurrence : Occurrence) : Field → Option Occurrence
  | ⟨1, .bytes b⟩ => do
    return { occurrence with range := occurrence.range ++ (← Wire.packed? b) }
  | ⟨1, .varint n⟩ => do
    return { occurrence with range := occurrence.range ++ [← Wire.int32? n] }
  | ⟨2, .bytes b⟩ => do return { occurrence with symbol := ← Wire.text? b }
  | ⟨3, .varint n⟩ => do return { occurrence with symbolRoles := ← Wire.int32? n }
  | ⟨4, .bytes b⟩ => (Wire.text? b).map fun _ => occurrence
  | ⟨5, .varint n⟩ | ⟨7, .varint n⟩ => (Wire.int32? n).map fun _ => occurrence
  | ⟨6, .bytes b⟩ =>
    if depth = 0 then none
    else (Wire.message? () checkDiagnosticField b).map fun _ => occurrence
  | ⟨7, .bytes b⟩ => (Wire.packed? b).map fun _ => occurrence
  | _ => some occurrence

/-- The occurrence that some bytes stand for, in which messages may be nested
`depth` deep. -/
def decodeWithin : Nat → Bytes → Option Occurrence
  | 0, _ => none
  | depth + 1, bytes => Wire.message? {} (readField depth) bytes

end Occurrence

namespace SymbolInformation

def encode (information : SymbolInformation) : Bytes :=
  textField 1 information.symbol ++
    (information.documentation.flatMap fun line => bytesField 3 (Wire.textBytes line)) ++
    textField 6 information.displayName

/-- What is known of a symbol after one more field.  The documentation of a
symbol's signature is a document, which `checkDocument` reads. -/
def readField (depth : Nat) (checkDocument : Bytes → Bool)
    (information : SymbolInformation) : Field → Option SymbolInformation
  | ⟨1, .bytes b⟩ => do return { information with symbol := ← Wire.text? b }
  | ⟨3, .bytes b⟩ => do
    return { information with documentation := information.documentation ++ [← Wire.text? b] }
  | ⟨4, .bytes b⟩ =>
    if depth = 0 then none
    else (Wire.message? () checkRelationshipField b).map fun _ => information
  | ⟨5, .varint n⟩ => (Wire.int32? n).map fun _ => information
  | ⟨6, .bytes b⟩ => do return { information with displayName := ← Wire.text? b }
  | ⟨7, .bytes b⟩ => if checkDocument b then some information else none
  | ⟨8, .bytes b⟩ => (Wire.text? b).map fun _ => information
  | _ => some information

end SymbolInformation

namespace Document

def encode (document : Document) : Bytes :=
  textField 4 document.language ++ textField 1 document.relativePath ++
    (document.occurrences.flatMap fun occurrence => bytesField 2 occurrence.encode) ++
    document.symbols.flatMap fun information => bytesField 3 information.encode

/-- A document after one more field.  `readSymbol` reads what is known of a
symbol. -/
def readField (depth : Nat) (readSymbol : Bytes → Option SymbolInformation)
    (document : Document) : Field → Option Document
  | ⟨1, .bytes b⟩ => do return { document with relativePath := ← Wire.text? b }
  | ⟨2, .bytes b⟩ => do
    return { document with
      occurrences := document.occurrences ++ [← Occurrence.decodeWithin depth b] }
  | ⟨3, .bytes b⟩ => do
    return { document with symbols := document.symbols ++ [← readSymbol b] }
  | ⟨4, .bytes b⟩ => do return { document with language := ← Wire.text? b }
  | ⟨5, .bytes b⟩ => (Wire.text? b).map fun _ => document
  | ⟨6, .varint n⟩ => (Wire.int32? n).map fun _ => document
  | _ => some document

end Document

mutual

/-- The document that some bytes stand for, in which messages may be nested
`depth` deep. -/
def Document.decodeWithin : Nat → Bytes → Option Document
  | 0, _ => none
  | depth + 1, bytes =>
    Wire.message? {} (Document.readField depth (SymbolInformation.decodeWithin depth)) bytes

/-- What some bytes tell about a symbol, in which messages may be nested `depth`
deep. -/
def SymbolInformation.decodeWithin : Nat → Bytes → Option SymbolInformation
  | 0, _ => none
  | depth + 1, bytes =>
    Wire.message? {}
      (SymbolInformation.readField depth fun b => (Document.decodeWithin depth b).isSome) bytes

end

namespace Index

/-- How deep messages may be nested in an index. -/
def maxNesting : Nat := 100

def encode (index : Index) : Bytes :=
  let metadata :=
    match index.metadata with
    | some metadata => bytesField 1 metadata.encode
    | none => []
  metadata ++ index.documents.flatMap fun document => bytesField 2 document.encode

def readField (index : Index) : Field → Option Index
  | ⟨1, .bytes b⟩ => do return { index with metadata := some (← Metadata.decode? b) }
  | ⟨2, .bytes b⟩ => do
    return { index with documents := index.documents ++ [← Document.decodeWithin maxNesting b] }
  | ⟨3, .bytes b⟩ => (SymbolInformation.decodeWithin maxNesting b).map fun _ => index
  | _ => some index

def decode? (bytes : Bytes) : Option Index :=
  Wire.message? {} readField bytes

end Index

end SymbolIndex
