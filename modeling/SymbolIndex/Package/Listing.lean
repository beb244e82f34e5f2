import SymbolIndex.Package.Basic
import SymbolIndex.Text.Blank
import SymbolIndex.Text.Lines

/-!
# Package listings

A listing describes installed packages in blocks of lines.  Lines that start
with three dashes separate the blocks.  A block has header lines, each a key
and a value around a colon, and after the `Files` header one indented line for
each file of the package.  A block without a name or a version describes no
package.
-/

namespace SymbolIndex

namespace Listing

/-- The pieces of a listing between line feeds that three dashes follow.
`current` holds the reversed characters of the piece read so far. -/
def blocksFrom (current : List Char) : List Char → List (List Char)
  | [] => [current.reverse]
  | '\n' :: '-' :: '-' :: '-' :: rest => current.reverse :: blocksFrom [] rest
  | c :: rest => blocksFrom (c :: current) rest

def blocks (listing : List Char) : List (List Char) :=
  blocksFrom [] listing

/-- What is known of a block's package after some of its lines. -/
structure Draft where
  name : Option String := none
  version : Option String := none
  location : Option FilePath := none
  /-- The files so far, last first. -/
  files : List FilePath := []
  /-- Whether the last header was `Files`, so that indented lines are files. -/
  inFiles : Bool := false
  deriving DecidableEq

def splitAtColon (line : List Char) : Option (List Char × List Char) :=
  match line.dropWhile (· ≠ ':') with
  | ':' :: value => some (line.takeWhile (· ≠ ':'), value)
  | _ => none

def isIndented (line : List Char) : Bool :=
  match line with
  | c :: _ => Text.isBlank c
  | [] => false

def readHeader (draft : Draft) (line : List Char) : Draft :=
  match splitAtColon line with
  | none => draft
  | some (key, value) =>
    let value := String.ofList (Text.trimChars value)
    match String.ofList (Text.trimChars key) with
    | "Name" => { draft with name := some value }
    | "Version" => { draft with version := some value }
    | "Location" => { draft with location := some ⟨value⟩ }
    | "Files" => { draft with inFiles := true }
    | _ => draft

def readLine (draft : Draft) (line : List Char) : Draft :=
  if draft.inFiles && isIndented line then
    match Text.trimChars line with
    | [] => draft
    | file => { draft with files := ⟨String.ofList file⟩ :: draft.files }
  else readHeader { draft with inFiles := false } line

/-- The package that a finished draft describes.  Files are found from the
location. -/
def Draft.package? (draft : Draft) : Option Package := do
  let name ← draft.name
  let version ← draft.version
  let place := fun file =>
    match draft.location with
    | some location => location.join file
    | none => file
  return .make name version (draft.files.reverse.map place)

def packageOfBlock? (block : List Char) : Option Package :=
  ((Text.lineChars block).foldl readLine {}).package?

def packages (listing : String) : List Package :=
  (blocks listing.toList).filterMap packageOfBlock?

end Listing

end SymbolIndex
