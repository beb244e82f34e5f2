import SymbolIndex.Symbol.Basic
import SymbolIndex.Text.Blank
import SymbolIndex.Text.Doubled

/-!
# Ecosystems

An ecosystem fixes the first field of global symbols and how the names of its
packages are normalized.  The root of a package is written with the scheme, the
package manager, the normalized name and the version.  Each field ends with a
space; an empty field is a dot and the spaces inside a field are doubled.
-/

namespace SymbolIndex

/-- How the name of a package is changed for its root symbol. -/
inductive Normalization where
  /-- The name without blank characters at its ends. -/
  | verbatim
  /-- The name with the first `separator` replaced, then without blank
  characters at its ends. -/
  | firstSeparator (separator replacement : Char)
  deriving DecidableEq, Repr

namespace Normalization

def replaceFirst (old new : Char) : List Char → List Char
  | [] => []
  | c :: rest => if c = old then new :: rest else c :: replaceFirst old new rest

def apply (rule : Normalization) (name : String) : String :=
  match rule with
  | verbatim => Text.trim name
  | firstSeparator separator replacement =>
    String.ofList (Text.trimChars (replaceFirst separator replacement name.toList))

end Normalization

/-- The naming conventions of a language's packages. -/
structure Ecosystem where
  scheme : String
  normalization : Normalization
  deriving DecidableEq, Repr

namespace Ecosystem

def python : Ecosystem := ⟨"scip-python", .firstSeparator '.' '/'⟩

def typescript : Ecosystem := ⟨"scip-typescript", .verbatim⟩

/-- The characters that a field of a package root is written with. -/
def fieldChars (field : String) : List Char :=
  if field = "" then ['.'] else Text.doubled ' ' field.toList

def rootChars (ecosystem : Ecosystem) (manager name version : String) : List Char :=
  ecosystem.scheme.toList ++ ' ' :: fieldChars manager ++
    ' ' :: fieldChars (ecosystem.normalization.apply name) ++
    ' ' :: fieldChars version ++ [' ']

def packageRoot (ecosystem : Ecosystem) (manager name version : String) : GlobalSymbol :=
  ⟨String.ofList (ecosystem.rootChars manager name version), 0⟩

end Ecosystem

end SymbolIndex
