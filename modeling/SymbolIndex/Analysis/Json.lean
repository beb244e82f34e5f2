import SymbolIndex.Analysis.Basic
import SymbolIndex.Json.Record

/-!
# Analyses in JSON

How the output of an analyzer is written.  Fields that hold their usual value
may be left out.
-/

namespace SymbolIndex

namespace Descriptor.Kind

def ofJson? : Json → Option Descriptor.Kind :=
  Json.choice? (all.map fun kind => (kind.text, kind))

end Descriptor.Kind

namespace Visibility

def text : Visibility → String
  | inFile => "local"
  | exported => "exported"

def ofJson? : Json → Option Visibility :=
  Json.choice? ([inFile, exported].map fun visibility => (visibility.text, visibility))

end Visibility

namespace Role

def text : Role → String
  | definition => "definition"
  | importing => "import"
  | write => "write"
  | read => "read"
  | generated => "generated"
  | test => "test"
  | forwardDefinition => "forward_definition"

def all : List Role :=
  [definition, importing, write, read, generated, test, forwardDefinition]

def ofJson? : Json → Option Role :=
  Json.choice? (all.map fun role => (role.text, role))

end Role

namespace Entity

def fieldNames : List String :=
  ["id", "name", "kind", "disambiguator", "visibility", "scope", "defined_in",
    "documentation"]

def ofJson? (value : Json) : Option Entity := do
  match ← value.record? fieldNames with
  | [id, name, kind, disambiguator, visibility, scope, definedIn, documentation] =>
    let id ← Json.required Json.uint32? id
    let name ← Json.required Json.string? name
    let kind ← Json.required Descriptor.Kind.ofJson? kind
    let disambiguator ← Json.defaulting "" Json.string? disambiguator
    let visibility ← Json.defaulting .exported Visibility.ofJson? visibility
    let scope ← Json.defaulting none (Json.nullable Json.uint32?) scope
    let definedIn ← Json.defaulting none (Json.nullable Json.string?) definedIn
    let documentation ← Json.defaulting [] (Json.list? Json.string?) documentation
    return {
      id, name, kind, disambiguator, visibility, scope
      definedIn := definedIn.map FilePath.mk
      documentation }
  | _ => none

end Entity

namespace Mention

def fieldNames : List String := ["entity", "range", "roles"]

def ofJson? (value : Json) : Option Mention := do
  match ← value.record? fieldNames with
  | [entity, range, roles] =>
    let entity ← Json.required Json.uint32? entity
    let range ← Json.required (Json.list? Json.int32?) range
    let roles ← Json.defaulting [] (Json.list? Role.ofJson?) roles
    return { entity, range, roles }
  | _ => none

end Mention

namespace AnalyzedFile

def fieldNames : List String := ["relative_path", "language", "entities", "occurrences"]

def ofJson? (value : Json) : Option AnalyzedFile := do
  match ← value.record? fieldNames with
  | [relativePath, language, entities, occurrences] =>
    let relativePath ← Json.required Json.string? relativePath
    let language ← Json.defaulting "python" Json.string? language
    let entities ← Json.defaulting [] (Json.list? Entity.ofJson?) entities
    let occurrences ← Json.defaulting [] (Json.list? Mention.ofJson?) occurrences
    return { relativePath, language, entities, occurrences }
  | _ => none

def read? (text : String) : Option AnalyzedFile :=
  (Json.read? text).bind ofJson?

end AnalyzedFile

end SymbolIndex
