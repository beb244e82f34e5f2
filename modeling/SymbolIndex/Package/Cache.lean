import SymbolIndex.Package.Basic
import SymbolIndex.Json.Record
import SymbolIndex.Json.Printer

/-!
# Package caches

A cache holds the packages of an environment as a JSON array of records with
the fields `name`, `version` and `files`.
-/

namespace SymbolIndex

namespace Package

def fieldNames : List String := ["name", "version", "files"]

def toJson (package : Package) : Json :=
  .ofFields [
    ("name", .ofString package.name),
    ("version", .ofString package.version),
    ("files", .array (package.files.paths.map fun file => .ofString file.text))]

/-- The package that a cache holds in a value.  Paths stay as they are spelled. -/
def ofJson? (value : Json) : Option Package := do
  match ← value.record? fieldNames with
  | [name, version, files] =>
    let name ← Json.required Json.string? name
    let version ← Json.required Json.string? version
    let files ← Json.required (Json.list? Json.string?) files
    return ⟨name, version, .ofList (files.map FilePath.mk)⟩
  | _ => none

end Package

namespace PackageCache

def print (packages : List Package) : String :=
  Json.print (.array (packages.map Package.toJson))

def ofJson? (value : Json) : Option (List Package) :=
  Json.list? Package.ofJson? value

def read? (text : String) : Option (List Package) :=
  (Json.read? text).bind ofJson?

/-- A character of a version in the name of a cache file. -/
def keyChar (c : Char) : Char :=
  if c.isAlphanum || c == '.' || c == '-' then c else '_'

def pathFor (dir : FilePath) (version : String) : FilePath :=
  dir.child s!"environment-{String.ofList (version.toList.map keyChar)}.json"

end PackageCache

end SymbolIndex
