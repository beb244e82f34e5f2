import SymbolIndex.Text.Doubled

/-!
# Descriptors

A descriptor is one segment of a global symbol: a name and a suffix that tells
what kind of thing it names.  A name made of letters, digits and `_+-$` is
written as it is; any other name stands between grave accents, with the grave
accents inside it doubled.  Only methods carry a disambiguator, and that is
part of the type.
-/

namespace SymbolIndex

inductive Descriptor.Kind where
  | nameSpace
  | type
  | term
  | method
  | typeParameter
  | parameter
  | metaInfo
  deriving DecidableEq, Repr, Inhabited

namespace Descriptor.Kind

def text : Descriptor.Kind → String
  | nameSpace => "namespace"
  | type => "type"
  | term => "term"
  | method => "method"
  | typeParameter => "type_parameter"
  | parameter => "parameter"
  | metaInfo => "meta"

def all : List Descriptor.Kind :=
  [nameSpace, type, term, method, typeParameter, parameter, metaInfo]

end Descriptor.Kind

/-- One segment of a global symbol. -/
structure Descriptor where
  name : String
  kind : Descriptor.Kind
  disambiguator : String
  /-- Only methods are told apart by a disambiguator. -/
  method_of_disambiguator : disambiguator ≠ "" → kind = .method
  deriving DecidableEq

/-- A rule of the symbol grammar that a descriptor or its place breaks. -/
inductive GrammarFault where
  | strayDisambiguator (kind : Descriptor.Kind) (disambiguator : String)
  | longFragment (size : Nat)
  | deepChain
  | scopeCycle
  | deepScope
  deriving DecidableEq, Repr

inductive SymbolFault where
  | grammar (name : String) (fault : GrammarFault)
  | localOwner (number : Nat) (descriptor : Descriptor)
  | emptyOwner (descriptor : Descriptor)
  deriving DecidableEq

/-- The most bytes that a written descriptor may have. -/
def maxFragmentSize : Nat := 1024

/-- The most descriptors that a symbol may have. -/
def maxDepth : Nat := 128

namespace Descriptor

/-- The grave accent, which stands around escaped names. -/
def quote : Char := '\x60'

def isPlainChar (c : Char) : Bool :=
  c.isAlphanum || c == '_' || c == '+' || c == '-' || c == '$'

def isPlain (name : List Char) : Bool :=
  !name.isEmpty && name.all isPlainChar

/-- The characters that a name is written with. -/
def escapeChars (name : List Char) : List Char :=
  if isPlain name then name else quote :: (Text.doubled quote name ++ [quote])

def quoteName (name : String) : String :=
  String.ofList (escapeChars name.toList)

/-- The descriptor with the given parts, refused when something other than a
method has a disambiguator. -/
def make (name : String) (kind : Descriptor.Kind) (disambiguator : String) :
    Except SymbolFault Descriptor :=
  if allowed : disambiguator ≠ "" → kind = .method then
    .ok ⟨name, kind, disambiguator, allowed⟩
  else
    .error (.grammar name (.strayDisambiguator kind disambiguator))

def plain (name : String) (kind : Descriptor.Kind) : Descriptor :=
  ⟨name, kind, "", fun notEmpty => absurd rfl notEmpty⟩

def method (name disambiguator : String) : Descriptor :=
  ⟨name, .method, disambiguator, fun _ => rfl⟩

/-- The characters of a written descriptor. -/
def spelling (descriptor : Descriptor) : List Char :=
  let name := escapeChars descriptor.name.toList
  match descriptor.kind with
  | .nameSpace => name ++ ['/']
  | .type => name ++ ['#']
  | .term => name ++ ['.']
  | .method =>
    if descriptor.disambiguator = "" then name ++ ['(', ')', '.']
    else name ++ '(' :: escapeChars descriptor.disambiguator.toList ++ [')', '.']
  | .typeParameter => '[' :: name ++ [']']
  | .parameter => '(' :: name ++ [')']
  | .metaInfo => name ++ [':']

def fragment (descriptor : Descriptor) : Except SymbolFault String :=
  let written := String.ofList descriptor.spelling
  if written.utf8ByteSize > maxFragmentSize then
    .error (.grammar descriptor.name (.longFragment written.utf8ByteSize))
  else .ok written

def display (descriptor : Descriptor) : String :=
  if descriptor.disambiguator = "" then
    descriptor.kind.text ++ " " ++ descriptor.name
  else
    descriptor.kind.text ++ " " ++ descriptor.name ++ "(" ++ descriptor.disambiguator ++ ")"

end Descriptor

namespace GrammarFault

def message : GrammarFault → String
  | strayDisambiguator kind disambiguator =>
    s!"{kind.text} descriptors cannot carry disambiguator '{disambiguator}'"
  | longFragment size => s!"encoded fragment is {size} bytes, limit is {maxFragmentSize}"
  | deepChain => s!"descriptor chain exceeds {maxDepth} levels"
  | scopeCycle => "scope chain forms a cycle"
  | deepScope => s!"scope chain exceeds {maxDepth} levels"

end GrammarFault

namespace SymbolFault

def message : SymbolFault → String
  | grammar name fault => s!"Grammar violation while encoding '{name}': {fault.message}"
  | localOwner number descriptor =>
    s!"Cannot compose descriptor '{descriptor.display}' onto local symbol 'local {number}'"
  | emptyOwner descriptor =>
    s!"Cannot compose descriptor '{descriptor.display}' onto the empty symbol"

end SymbolFault

end SymbolIndex
