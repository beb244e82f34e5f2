import SymbolIndex.FilePath
import SymbolIndex.Symbol.Descriptor

/-!
# Analyses

What an analyzer found in one source file: the entities, with the scope that
contains each, and the places where they occur.
-/

namespace SymbolIndex

abbrev EntityId := UInt32

inductive Visibility where
  | inFile
  | exported
  deriving DecidableEq, Repr

inductive Role where
  | definition
  | importing
  | write
  | read
  | generated
  | test
  | forwardDefinition
  deriving DecidableEq, Repr

namespace Role

def bit : Role → Int32
  | definition => 1
  | importing => 2
  | write => 4
  | read => 8
  | generated => 16
  | test => 32
  | forwardDefinition => 64

def bits (roles : List Role) : Int32 :=
  roles.foldl (fun bits role => bits ||| role.bit) 0

end Role

/-- Something that has a name in a source file. -/
structure Entity where
  id : EntityId
  name : String
  kind : Descriptor.Kind
  disambiguator : String
  visibility : Visibility
  /-- The entity around this one, unless it lies directly in the package. -/
  scope : Option EntityId
  /-- The file that defines the entity, when it is not the analyzed one. -/
  definedIn : Option FilePath
  documentation : List String
  deriving DecidableEq

/-- A place where an entity occurs. -/
structure Mention where
  entity : EntityId
  /-- Start line, start column and end column, or start line, start column,
  end line and end column. -/
  range : List Int32
  roles : List Role
  deriving DecidableEq

namespace Mention

def isDefinition (occurrence : Mention) : Bool :=
  occurrence.roles.contains .definition

/-- Whether a range has three or four numbers, none of them negative, and ends
no earlier than it starts. -/
def hasProperRange (occurrence : Mention) : Bool :=
  let ordered :=
    match occurrence.range with
    | [_, start, finish] => decide (start ≤ finish)
    | [startLine, start, endLine, finish] =>
      decide (startLine < endLine) || (startLine == endLine && decide (start ≤ finish))
    | _ => false
  ordered && occurrence.range.all (0 ≤ ·)

end Mention

/-- What an analyzer found in one source file. -/
structure AnalyzedFile where
  /-- The path of the source file from the project root. -/
  relativePath : String
  language : String
  entities : List Entity
  occurrences : List Mention
  deriving DecidableEq

end SymbolIndex
