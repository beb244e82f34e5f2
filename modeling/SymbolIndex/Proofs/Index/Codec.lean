import SymbolIndex.Index.Codec
import SymbolIndex.Proofs.Index.Wire

/-!
# Reading back an index

The written form of every message of the data model turns the message without
fields into the message that was written, one field after the other.  What is
not written of a message is what the message without fields has.
-/

namespace SymbolIndex

open Wire (Turns)

namespace ToolInfo

theorem turns_encode (tool : ToolInfo) : Turns readField tool.encode {} tool := by
  have name : Turns readField (Wire.textField 1 tool.name) {} { name := tool.name } :=
    .textField (by decide) (by simp +contextual) (by simp [readField])
  have version : Turns readField (Wire.textField 2 tool.version) { name := tool.name }
      { name := tool.name, version := tool.version } :=
    .textField (by decide) (by simp +contextual) (by simp [readField])
  have arguments : Turns readField
      (tool.arguments.flatMap fun argument => Wire.bytesField 3 (Wire.textBytes argument))
      { name := tool.name, version := tool.version } tool :=
    Turns.flatMap (fun argument => Wire.bytesField 3 (Wire.textBytes argument))
      (fun arguments => { tool with arguments })
      (fun _ _ _ => .bytesField (by decide) fun _ => by simp [readField]) []
  exact (name.append version).append arguments

theorem decode?_encode {tool : ToolInfo} (size : tool.encode.length < UInt32.size) :
    decode? tool.encode = some tool :=
  tool.turns_encode.message? size

end ToolInfo

namespace Metadata

/-- Metadata without a tool has no field for it, even if the empty tool has one. -/
theorem turns_toolInfo (version : Int32) (toolInfo : Option ToolInfo) :
    Turns readField
      (match toolInfo with
        | some tool => Wire.bytesField 2 tool.encode
        | none => [])
      { version } { version, toolInfo } := by
  cases toolInfo with
  | none => exact .nil
  | some tool =>
      exact .bytesField (by decide) fun size => by
        simp [readField, ToolInfo.decode?_encode size]

theorem turns_encode (metadata : Metadata) : Turns readField metadata.encode {} metadata := by
  have version : Turns readField (Wire.int32Field 1 metadata.version) {}
      { version := metadata.version } :=
    .int32Field (by decide) (by simp +contextual) (by simp [readField])
  have tool := turns_toolInfo metadata.version metadata.toolInfo
  have projectRoot : Turns readField (Wire.textField 3 metadata.projectRoot)
      { version := metadata.version, toolInfo := metadata.toolInfo }
      { version := metadata.version, toolInfo := metadata.toolInfo,
        projectRoot := metadata.projectRoot } :=
    .textField (by decide) (by simp +contextual) (by simp [readField])
  have encoding : Turns readField (Wire.int32Field 4 metadata.textDocumentEncoding)
      { version := metadata.version, toolInfo := metadata.toolInfo,
        projectRoot := metadata.projectRoot } metadata :=
    .int32Field (by decide) (fun zero => by rw [← zero]) (by simp [readField])
  exact ((version.append tool).append projectRoot).append encoding

theorem decode?_encode {metadata : Metadata} (size : metadata.encode.length < UInt32.size) :
    decode? metadata.encode = some metadata :=
  metadata.turns_encode.message? size

end Metadata

namespace Occurrence

theorem turns_encode (depth : Nat) (occurrence : Occurrence) :
    Turns (readField depth) occurrence.encode {} occurrence := by
  have range : Turns (readField depth) (Wire.packedField 1 occurrence.range) {}
      { range := occurrence.range } :=
    .packedField (by decide) (by simp +contextual) (by simp [readField])
  have symbol : Turns (readField depth) (Wire.textField 2 occurrence.symbol)
      { range := occurrence.range }
      { range := occurrence.range, symbol := occurrence.symbol } :=
    .textField (by decide) (by simp +contextual) (by simp [readField])
  have roles : Turns (readField depth) (Wire.int32Field 3 occurrence.symbolRoles)
      { range := occurrence.range, symbol := occurrence.symbol } occurrence :=
    .int32Field (by decide) (fun zero => by rw [← zero]) (by simp [readField])
  exact (range.append symbol).append roles

theorem decodeWithin_encode {occurrence : Occurrence} (depth : Nat)
    (size : occurrence.encode.length < UInt32.size) :
    decodeWithin (depth + 1) occurrence.encode = some occurrence :=
  (occurrence.turns_encode depth).message? size

end Occurrence

namespace SymbolInformation

theorem turns_encode (depth : Nat) (checkDocument : Bytes → Bool)
    (information : SymbolInformation) :
    Turns (readField depth checkDocument) information.encode {} information := by
  have symbol : Turns (readField depth checkDocument) (Wire.textField 1 information.symbol) {}
      { symbol := information.symbol } :=
    .textField (by decide) (by simp +contextual) (by simp [readField])
  have documentation : Turns (readField depth checkDocument)
      (information.documentation.flatMap fun line => Wire.bytesField 3 (Wire.textBytes line))
      { symbol := information.symbol }
      { symbol := information.symbol, documentation := information.documentation } :=
    Turns.flatMap (fun line => Wire.bytesField 3 (Wire.textBytes line))
      (fun documentation => { information with documentation, displayName := "" })
      (fun _ _ _ => .bytesField (by decide) fun _ => by simp [readField]) []
  have displayName : Turns (readField depth checkDocument)
      (Wire.textField 6 information.displayName)
      { symbol := information.symbol, documentation := information.documentation }
      information :=
    .textField (by decide) (fun empty => by rw [← empty]) (by simp [readField])
  exact (symbol.append documentation).append displayName

theorem decodeWithin_encode {information : SymbolInformation} (depth : Nat)
    (size : information.encode.length < UInt32.size) :
    decodeWithin (depth + 1) information.encode = some information := by
  rw [decodeWithin]
  exact (turns_encode depth _ information).message? size

end SymbolInformation

namespace Document

/-- A document is read back where a symbol may be nested in it. -/
theorem turns_encode (depth : Nat) (document : Document) :
    Turns (readField (depth + 1) (SymbolInformation.decodeWithin (depth + 1)))
      document.encode {} document := by
  let read := readField (depth + 1) (SymbolInformation.decodeWithin (depth + 1))
  have language : Turns read (Wire.textField 4 document.language) {}
      { language := document.language } :=
    .textField (by decide) (by simp +contextual) (by simp [read, readField])
  have relativePath : Turns read (Wire.textField 1 document.relativePath)
      { language := document.language }
      { language := document.language, relativePath := document.relativePath } :=
    .textField (by decide) (by simp +contextual) (by simp [read, readField])
  have occurrences : Turns read
      (document.occurrences.flatMap fun occurrence => Wire.bytesField 2 occurrence.encode)
      { language := document.language, relativePath := document.relativePath }
      { language := document.language, relativePath := document.relativePath,
        occurrences := document.occurrences } :=
    Turns.flatMap (fun occurrence : Occurrence => Wire.bytesField 2 occurrence.encode)
      (fun occurrences => { document with occurrences, symbols := [] })
      (fun _ _ _ => .bytesField (by decide) fun size => by
        simp [read, readField, Occurrence.decodeWithin_encode depth size]) []
  have symbols : Turns read
      (document.symbols.flatMap fun information => Wire.bytesField 3 information.encode)
      { language := document.language, relativePath := document.relativePath,
        occurrences := document.occurrences } document :=
    Turns.flatMap (fun information : SymbolInformation => Wire.bytesField 3 information.encode)
      (fun symbols => { document with symbols })
      (fun _ _ _ => .bytesField (by decide) fun size => by
        simp [read, readField, SymbolInformation.decodeWithin_encode depth size]) []
  exact ((language.append relativePath).append occurrences).append symbols

theorem decodeWithin_encode {document : Document} (depth : Nat)
    (size : document.encode.length < UInt32.size) :
    decodeWithin (depth + 2) document.encode = some document := by
  rw [decodeWithin]
  exact (turns_encode depth document).message? size

end Document

namespace Index

theorem turns_metadata (metadata : Option Metadata) :
    Turns readField
      (match metadata with
        | some metadata => Wire.bytesField 1 metadata.encode
        | none => [])
      {} { metadata } := by
  cases metadata with
  | none => exact .nil
  | some metadata =>
      exact .bytesField (by decide) fun size => by
        simp [readField, Metadata.decode?_encode size]

theorem turns_encode (index : Index) : Turns readField index.encode {} index := by
  have metadata := turns_metadata index.metadata
  have documents : Turns readField
      (index.documents.flatMap fun document => Wire.bytesField 2 document.encode)
      { metadata := index.metadata } index :=
    Turns.flatMap (fun document : Document => Wire.bytesField 2 document.encode)
      (fun documents => { index with documents })
      (fun _ _ _ => .bytesField (by decide) fun size => by
        simp [readField, maxNesting, Document.decodeWithin_encode 98 size]) []
  exact metadata.append documents

theorem decode?_encode {index : Index} (size : index.encode.length < UInt32.size) :
    decode? index.encode = some index :=
  index.turns_encode.message? size

end Index

end SymbolIndex
