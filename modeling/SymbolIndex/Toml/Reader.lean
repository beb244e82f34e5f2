import SymbolIndex.Toml.Literal
import SymbolIndex.Toml.Scalar
import SymbolIndex.Toml.Tables

/-!
# Reading TOML

The grammar of TOML documents.  A document is a sequence of lines, each with a
table header or with a key and its value, where values may go on over several
lines.  A byte order mark in front is passed over.
-/

namespace SymbolIndex

namespace Toml

namespace Reading

/-- How deep values may lie in each other. -/
def maxNesting : Nat := 80

def simpleKey : Reading String := do
  match ← shortLiteral? with
  | some name => return name
  | none =>
    let name ← takeWhile isKeyChar
    if name.isEmpty then fail .key
    return String.ofList name

def dottedKey : Nat → Reading (List String)
  | 0 => fail .key
  | fuel + 1 => do
    spaces
    let name ← simpleKey
    spaces
    if ← accept "." then return name :: (← dottedKey fuel)
    else return [name]

def key : Reading (List String) := do
  dottedKey ((← remaining) + 1)

def startsScalar (c : Char) : Bool :=
  c.isDigit || c == '+' || c == '-' || c == 't' || c == 'f' || c == 'i' || c == 'n'

/-- Takes a word that stands for a value.  A date may be followed by a space and
a time. -/
def scalar : Reading Toml := do
  let start ← remaining
  let word ← takeWhile isScalarChar
  let rest ← get
  let word ←
    match afterDate? word, rest with
    | some [], ' ' :: more =>
      if startsLikeTime more then
        let _ ← next
        pure (word ++ ' ' :: (← takeWhile isScalarChar))
      else pure word
    | _, _ => pure word
  match ofWord word with
  | .ok value => return value
  | .error problem => failAt start problem

/-- Changes the entries of a table, or finds a fault at a place that has been
passed. -/
def settle (start : Nat) (result : Except Problem Entries) : Reading Entries :=
  match result with
  | .ok entries => return entries
  | .error problem => failAt start problem

mutual

/-- Takes a value that lies at most so deep in others. -/
def value (nesting : Nat) : Nat → Reading Toml
  | 0 => fail .nesting
  | fuel + 1 => do
    match ← literal? with
    | some written => return .text written
    | none =>
      match ← peek with
      | some '[' =>
        if nesting = 0 then fail .nesting
        let _ ← next
        return .array (← items (nesting - 1) fuel)
      | some '\x7b' =>
        if nesting = 0 then fail .nesting
        let _ ← next
        spaces
        if ← accept "\x7d" then return .table []
        return .table (fieldsOf (← fields (nesting - 1) fuel []))
      | some c => if startsScalar c then scalar else fail .value
      | none => fail .value

def items (nesting : Nat) : Nat → Reading (List Toml)
  | 0 => fail .array
  | fuel + 1 => do
    blank fuel
    if ← accept "]" then return []
    let item ← value nesting fuel
    blank fuel
    if ← accept "," then return item :: (← items nesting fuel)
    expect "]" .array
    return [item]

/-- Takes the fields of an inline table from one field on, up to its brace. -/
def fields (nesting : Nat) : Nat → Entries → Reading Entries
  | 0, _ => fail .inlineTable
  | fuel + 1, entries => do
    let start ← remaining
    let path ← key
    expect "=" .afterKey
    spaces
    let field ← value nesting fuel
    let entries ← settle start (addValue [] field path entries)
    spaces
    if ← accept "," then fields nesting fuel entries
    else
      expect "\x7d" .inlineTable
      return entries

end

structure Document where
  entries : Entries := []
  table : List String := []

def assignment (document : Document) : Reading Document := do
  let start ← remaining
  let path ← key
  expect "=" .afterKey
  spaces
  let field ← value maxNesting ((← remaining) + 1)
  lineEnd .afterValue
  let add := addValue document.table field path
  return { document with
    entries := ← settle start (changeAt add document.table document.entries) }

/-- Takes a header whose opening bracket or brackets have been taken. -/
def header (document : Document) (start : Nat) (close : String)
    (add : List String → List String → Entries → Except Problem Entries) :
    Reading Document := do
  let path ← key
  expect close (.header close)
  lineEnd .afterHeader
  return ⟨← settle start (add path path document.entries), path⟩

def expressions : Nat → Document → Reading Document
  | 0, document => return document
  | fuel + 1, document => do
    spaces
    let start ← remaining
    match ← peek with
    | none => return document
    | some '#' | some '\n' | some '\r' =>
      lineEnd .key
      expressions fuel document
    | some '[' =>
      if ← accept "[[" then
        expressions fuel (← header document start "]]" openElement)
      else
        let _ ← next
        expressions fuel (← header document start "]" openTable)
    | some _ => expressions fuel (← assignment document)

def document : Reading Toml := do
  let _ ← accept "\ufeff"
  let finished ← expressions ((← remaining) + 1) {}
  return .table (fieldsOf finished.entries)

end Reading

def read (text : String) : Except Fault Toml :=
  (Reading.document.run text.toList).map Prod.fst

end Toml

end SymbolIndex
