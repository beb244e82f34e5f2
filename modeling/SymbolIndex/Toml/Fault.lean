/-!
# Faults in TOML

Where and why a text is not TOML, and how that is shown: the place, the line
with a mark below it, and what is wrong.
-/

namespace SymbolIndex

namespace Toml

inductive Problem where
  | key
  | afterKey
  | afterValue
  /-- A table header that does not end as it began. -/
  | header (close : String)
  | afterHeader
  | value
  | string (style : String)
  | array
  | inlineTable
  | number
  | moment
  | outOfRange
  | nesting
  /-- A name that a table already has. -/
  | duplicateKey (key : String) (table : Option (List String))
  /-- The same in a table header. -/
  | duplicateTable (key : String) (table : List String)
  /-- A table that continues something that is no table. -/
  | notTable (key kind : String)
  deriving DecidableEq, Repr

namespace Problem

def showTable : List String → String
  | [] => "in document root"
  | path => "in table `" ++ String.intercalate "." path ++ "`"

def message : Problem → String
  | key => "invalid key"
  | afterKey => "expected `.`, `=`"
  | afterValue => "expected newline, `#`"
  | header close => s!"invalid table header\nexpected `.`, `{close}`"
  | afterHeader => "invalid table header\nexpected newline, `#`"
  | value => "invalid string\nexpected `\"`, `'`"
  | string style => s!"invalid {style}"
  | array => "invalid array\nexpected `]`"
  | inlineTable => "invalid inline table\nexpected `\x7d`"
  | number => "invalid number"
  | moment => "invalid date-time"
  | outOfRange => "value is out of range"
  | nesting => "recursion limit exceeded"
  | duplicateKey name none => s!"duplicate key `{name}`"
  | duplicateKey name (some path) => s!"duplicate key `{name}` {showTable path}"
  | duplicateTable name path =>
    s!"invalid table header\nduplicate key `{name}` {showTable path}"
  | notTable name kind =>
    s!"dotted key `{name}` attempted to extend non-table type ({kind})"

end Problem

/-- A problem with how many characters of the text are left at its place. -/
structure Fault where
  remaining : Nat
  problem : Problem
  deriving DecidableEq, Repr

namespace Fault

def spaces (count : Nat) : String :=
  String.ofList (List.replicate count ' ')

def render (text : String) (fault : Fault) : String :=
  let before := text.toList.take (text.length - fault.remaining)
  let after := text.toList.drop (text.length - fault.remaining)
  let lineNumber := before.count '\n' + 1
  let start := (before.reverse.takeWhile (· ≠ '\n')).reverse
  let line := String.ofList (start ++ after.takeWhile (· ≠ '\n'))
  let gutter := spaces ((toString lineNumber).length + 1)
  let marked := (after.head?.map fun c => min c.utf8Size line.utf8ByteSize).getD 1
  let mark := String.ofList (List.replicate (max marked 1) '^')
  s!"TOML parse error at line {lineNumber}, column {start.length + 1}\n" ++
    gutter ++ "|\n" ++ s!"{lineNumber} | {line}\n" ++
    gutter ++ "|" ++ spaces (start.length + 1) ++ mark ++ "\n" ++
    fault.problem.message ++ "\n"

end Fault

end Toml

end SymbolIndex
