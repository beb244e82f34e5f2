import SymbolIndex.Text.Digits
import SymbolIndex.Toml.Reading

/-!
# String literals

The four ways to write a string: on one line or on several, and with escapes or
without.  A line feed right after the opening quotes of a string of several
lines does not belong to it, and all ends of lines in it are read as line feeds.
-/

namespace SymbolIndex

namespace Toml

inductive LiteralStyle where
  | basic
  | literal
  | multilineBasic
  | multilineLiteral
  deriving DecidableEq, Repr

namespace LiteralStyle

def name : LiteralStyle → String
  | basic => "basic string"
  | literal => "literal string"
  | multilineBasic => "multiline basic string"
  | multilineLiteral => "multiline literal string"

def quote : LiteralStyle → Char
  | basic | multilineBasic => '"'
  | literal | multilineLiteral => '\''

def hasEscapes : LiteralStyle → Bool
  | basic | multilineBasic => true
  | literal | multilineLiteral => false

def isMultiline : LiteralStyle → Bool
  | basic | literal => false
  | multilineBasic | multilineLiteral => true

end LiteralStyle

def charOfNat? (n : Nat) : Option Char :=
  if n.isValidChar then some (Char.ofNat n) else none

namespace Reading

def charNumber (digits : Nat) : Reading (Option Char) := fun rest =>
  let written := rest.take digits
  if written.length = digits && written.all (Text.isDigitIn 16) then
    .ok (charOfNat? (Text.natOfDigits 16 written), rest.drop digits)
  else .ok (none, rest)

/-- Takes what follows a backslash and gives the character that it stands for. -/
def escapedChar : Reading (Option Char) := do
  match ← next with
  | some 'b' => return some '\x08'
  | some 't' => return some '\t'
  | some 'n' => return some '\n'
  | some 'f' => return some '\x0c'
  | some 'r' => return some '\r'
  | some '"' => return some '"'
  | some '\\' => return some '\\'
  | some 'u' => charNumber 4
  | some 'U' => charNumber 8
  | _ => return none

/-- Takes white space and ends of lines, in at most so many steps. -/
def blankLines : Nat → Reading Unit
  | 0 => return ()
  | fuel + 1 => do
    spaces
    if ← newLine then blankLines fuel

/-- Takes the end of a line that a backslash joins to the next text, with all
blank lines after it. -/
def lineJoin : Reading Bool := do
  let start ← get
  spaces
  if ← newLine then
    blankLines start.length
    return true
  set start
  return false

/-- Takes quotes at the end of a string or in it.  Tells how many of them belong
to the string, and whether it ends here.  Up to two quotes may stand before the
three that end a string of several lines. -/
def quotes (style : LiteralStyle) : Reading (Nat × Bool) := fun rest =>
  if style.isMultiline then
    let count := (rest.takeWhile (· = style.quote)).length
    if count < 3 then .ok ((count, false), rest.drop count)
    else .ok ((min (count - 3) 2, true), rest.drop (min (count - 3) 2 + 3))
  else .ok ((0, true), rest.tail)

/-- Takes a character of a string that stands for itself. -/
def plainChar (style : LiteralStyle) : Reading Char := do
  match ← peek with
  | some c =>
    if isTextChar c then
      let _ ← next
      return c
    else fail (.string style.name)
  | none => fail (.string style.name)

/-- Takes a line feed if one comes next and the string may go on after it. -/
def innerNewLine (style : LiteralStyle) : Reading Bool :=
  if style.isMultiline then newLine else return false

def backslash (style : LiteralStyle) : Reading Bool :=
  if style.hasEscapes then accept "\\" else return false

/-- Takes what follows a backslash: the character that it stands for, or nothing
when the backslash joins two lines. -/
def afterBackslash (style : LiteralStyle) : Reading (List Char) := do
  let joined ← if style.isMultiline then lineJoin else pure false
  if joined then return []
  match ← escapedChar with
  | some c => return [c]
  | none => fail (.string style.name)

/-- Takes the characters of a string up to its closing quotes, in at most so
many steps. -/
def literalChars (style : LiteralStyle) : Nat → Reading (List Char)
  | 0 => fail (.string style.name)
  | fuel + 1 => do
    if (← peek) = some style.quote then
      let (count, ended) ← quotes style
      let more ← if ended then pure [] else literalChars style fuel
      return List.replicate count style.quote ++ more
    else if ← backslash style then
      let first ← afterBackslash style
      return first ++ (← literalChars style fuel)
    else if ← innerNewLine style then
      return '\n' :: (← literalChars style fuel)
    else
      let first ← plainChar style
      return first :: (← literalChars style fuel)

def literalOf (style : LiteralStyle) : Reading String := do
  if style.isMultiline then
    let _ ← newLine
  return String.ofList (← literalChars style ((← remaining) + 1))

def shortLiteral? : Reading (Option String) := do
  if ← accept "\"" then return some (← literalOf .basic)
  else if ← accept "'" then return some (← literalOf .literal)
  else return none

def literal? : Reading (Option String) := do
  if ← accept "\"\"\"" then return some (← literalOf .multilineBasic)
  else if ← accept "'''" then return some (← literalOf .multilineLiteral)
  else shortLiteral?

end Reading

end Toml

end SymbolIndex
