import SymbolIndex.Json.Basic

/-!
# Printing JSON

The printed form of JSON values with each item on a line of its own, indented
by two spaces.  Empty arrays and objects stay on one line.  Only quotes,
backslashes and control characters are escaped.
-/

namespace SymbolIndex

namespace Json

def hexDigit (n : Nat) : Char :=
  if n < 10 then Char.ofNat (48 + n) else Char.ofNat (87 + n)

def escapeChar (c : Char) : List Char :=
  if c = '"' then ['\\', '"']
  else if c = '\\' then ['\\', '\\']
  else if c = '\x08' then ['\\', 'b']
  else if c = '\t' then ['\\', 't']
  else if c = '\n' then ['\\', 'n']
  else if c = '\x0c' then ['\\', 'f']
  else if c = '\r' then ['\\', 'r']
  else if c.toNat < 0x20 then
    ['\\', 'u', '0', '0', hexDigit (c.toNat / 16), hexDigit (c.toNat % 16)]
  else [c]

def literal (s : String) : List Char :=
  '"' :: (s.toList.flatMap escapeChar ++ ['"'])

/-- The start of a line with the given indentation. -/
def newLine (depth : Nat) : List Char :=
  '\n' :: List.replicate (2 * depth) ' '

def printName (name : Option String) : List Char :=
  literal (name.getD "") ++ [':', ' ']

mutual

/-- The printed form of a value that stands at an indentation.  A number that
is not an integer and a literal that is no text have no value to print and are
printed as `null`. -/
def printAt (depth : Nat) : Json → List Char
  | .null | .real | .text none => ['n', 'u', 'l', 'l']
  | .bool true => ['t', 'r', 'u', 'e']
  | .bool false => ['f', 'a', 'l', 's', 'e']
  | .integer n => (toString n).toList
  | .text (some s) => literal s
  | .array [] => ['[', ']']
  | .array (item :: items) =>
    '[' :: (newLine (depth + 1) ++ printAt (depth + 1) item ++
      printItems (depth + 1) items ++ newLine depth ++ [']'])
  | .object [] => ['\x7b', '\x7d']
  | .object ((name, value) :: fields) =>
    '\x7b' :: (newLine (depth + 1) ++ printName name ++
      printAt (depth + 1) value ++
      printFields (depth + 1) fields ++ newLine depth ++ ['\x7d'])

def printItems (depth : Nat) : List Json → List Char
  | [] => []
  | item :: items => ',' :: (newLine depth ++ printAt depth item ++ printItems depth items)

def printFields (depth : Nat) : List (Option String × Json) → List Char
  | [] => []
  | (name, value) :: fields =>
    ',' :: (newLine depth ++ printName name ++ printAt depth value ++
      printFields depth fields)

end

def print (value : Json) : String :=
  String.ofList (printAt 0 value)

end Json

end SymbolIndex
