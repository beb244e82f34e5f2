import SymbolIndex.Analysis.Basic
import SymbolIndex.Index.Basic
import SymbolIndex.Text.Lines

/-!
# Annotated sources

A snapshot is the source text of a document with a block of comment lines below
each line for every occurrence that starts on it.  A block underlines the
occurrence, tells its role and symbol, and shows the documentation of symbols
that are defined there.  Columns count bytes.
-/

namespace SymbolIndex

namespace Snapshot

def sameIgnoringCase (a b : String) : Bool :=
  a.toList.map Char.toLower == b.toList.map Char.toLower

def commentMark (language : String) : String :=
  if sameIgnoringCase language "python" then "#" else "//"

def hasRole (roles : Int32) (role : Role) : Bool :=
  roles &&& role.bit != 0

/-- The roles that are told after the first word, and their names. -/
def modifiers : List (Role × String) :=
  [(.importing, "import"), (.write, "write"), (.read, "read"), (.generated, "generated"),
    (.test, "test"), (.forwardDefinition, "forward_definition")]

def roleText (roles : Int32) : String :=
  let first := if hasRole roles .definition then "definition" else "reference"
  let others := (modifiers.filter fun (role, _) => hasRole roles role).map Prod.snd
  String.intercalate " " (first :: others)

/-- An occurrence as it is shown. -/
structure Callout where
  line : Nat
  start : Nat
  width : Nat
  symbol : String
  roles : Int32
  deriving DecidableEq, Repr

namespace Callout

/-- The numbers of a range: start line, start column, end line, end column.
Ranges with negative numbers or of another length are none. -/
def rangeParts? : List Int32 → Option (Nat × Nat × Nat × Nat)
  | [line, start, finish] => parts line start line finish
  | [line, start, endLine, finish] => parts line start endLine finish
  | _ => none
where
  parts (line start endLine finish : Int32) : Option (Nat × Nat × Nat × Nat) :=
    if line < 0 || start < 0 || endLine < 0 || finish < 0 then none
    else
      some (line.toInt.toNat, start.toInt.toNat, endLine.toInt.toNat, finish.toInt.toNat)

/-- The callout of an occurrence in a source.  One that goes on past its
first line is underlined to the end of that line. -/
def ofOccurrence? (lines : List String) (occurrence : Occurrence) : Option Callout := do
  let (line, start, endLine, finish) ← rangeParts? occurrence.range
  let finish :=
    if endLine = line then finish
    else
      match lines[line]? with
      | some text => text.utf8ByteSize
      | none => start
  return ⟨line, start, finish - start, occurrence.symbol, occurrence.symbolRoles⟩

/-- The order of callouts: by line, start, symbol, end and roles. -/
def le (a b : Callout) : Bool :=
  if a.line ≠ b.line then a.line < b.line
  else if a.start ≠ b.start then a.start < b.start
  else if a.symbol ≠ b.symbol then a.symbol ≤ b.symbol
  else if a.width ≠ b.width then a.width < b.width
  else a.roles ≤ b.roles

end Callout

def repeated (c : Char) (count : Nat) : String :=
  String.ofList (List.replicate count c)

/-- What stands on a block's lines before their text: the comment mark, and
spaces up to the start of the occurrence if it starts after the mark. -/
def indent (comment : String) (callout : Callout) : String :=
  comment ++ repeated ' ' (callout.start - comment.utf8ByteSize)

/-- The line under an occurrence.  An occurrence that starts below the comment
mark is pointed at from there. -/
def carets (comment : String) (callout : Callout) : String :=
  if callout.start ≥ comment.utf8ByteSize then repeated '^' (max callout.width 1)
  else " <" ++ repeated '^' callout.width

/-- What is known of a symbol in a document.  The last record of a symbol
counts. -/
def information? (document : Document) (symbol : String) : Option SymbolInformation :=
  document.symbols.reverse.find? (·.symbol = symbol)

/-- How far a documentation line is set in when it is not the first. -/
def continuationIndent : Nat := 12

def documentationLines (indent : String) (information : SymbolInformation) : List String :=
  match information.documentation.flatMap Text.lines with
  | [] => []
  | first :: rest =>
    (indent ++ "documentation " ++ first ++ "\n") ::
      rest.map fun line =>
        indent ++ repeated ' ' continuationIndent ++ "> " ++ line ++ "\n"

def headerLine (comment : String) (callout : Callout) : String :=
  indent comment callout ++ carets comment callout ++ " " ++
    roleText callout.roles ++ " " ++ callout.symbol ++ "\n"

def block (document : Document) (callout : Callout) : String :=
  let comment := commentMark document.language
  let shown :=
    if hasRole callout.roles .definition then
      match information? document callout.symbol with
      | some information => documentationLines (indent comment callout) information
      | none => []
    else []
  headerLine comment callout ++ String.join shown

def callouts (document : Document) (lines : List String) : List Callout :=
  (document.occurrences.filterMap (Callout.ofOccurrence? lines)).mergeSort Callout.le

/-- The lines of a source from line `number` on, each with the blocks of the
callouts at the front of `pending` that start on it, and then the blocks of
the callouts that are left. -/
def calloutLines (document : Document) (number : Nat) (pending : List Callout) :
    List String → List String
  | [] => pending.map (block document)
  | line :: lines =>
    (line ++ "\n") ::
      (pending.takeWhile (·.line = number)).map (block document) ++
      calloutLines document (number + 1) (pending.dropWhile (·.line = number)) lines

/-- The source of a document with its occurrences shown below its lines. -/
def render (source : String) (document : Document) : String :=
  let lines := Text.lines source
  String.join (calloutLines document 0 (callouts document lines) lines)

end Snapshot

end SymbolIndex
