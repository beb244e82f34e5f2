import SymbolIndex.Toml.Fault

/-!
# Steps of reading

A step of reading takes characters from the front of a text, or finds a fault
there.  The classes of characters that TOML tells apart are here too.
-/

namespace SymbolIndex

namespace Toml

/-- A step of reading. -/
abbrev Reading (α : Type) := StateT (List Char) (Except Fault) α

def isSpace (c : Char) : Bool :=
  c == ' ' || c == '\t'

def isKeyChar (c : Char) : Bool :=
  c.isAlphanum || c == '_' || c == '-'

/-- The characters that may stand in comments and literal strings: all but
control characters, of which the tab is allowed. -/
def isTextChar (c : Char) : Bool :=
  c == '\t' || (c.toNat ≥ 0x20 && c.toNat ≠ 0x7F)

def isScalarChar (c : Char) : Bool :=
  c.isAlphanum || c == '_' || c == '+' || c == '-' || c == '.' || c == ':'

namespace Reading

def fail {α : Type} (problem : Problem) : Reading α :=
  fun rest => .error ⟨rest.length, problem⟩

/-- Finds a fault at a place that has been passed. -/
def failAt {α : Type} (remaining : Nat) (problem : Problem) : Reading α :=
  fun _ => .error ⟨remaining, problem⟩

def remaining : Reading Nat :=
  fun rest => .ok (rest.length, rest)

/-- The next character, which is left where it is. -/
def peek : Reading (Option Char) :=
  fun rest => .ok (rest.head?, rest)

def next : Reading (Option Char) :=
  fun rest => .ok (rest.head?, rest.tail)

def takeWhile (p : Char → Bool) : Reading (List Char) :=
  fun rest => .ok (rest.takeWhile p, rest.dropWhile p)

/-- Takes a word if it comes next. -/
def accept (word : String) : Reading Bool :=
  fun rest =>
    if word.toList.isPrefixOf rest then .ok (true, rest.drop word.length)
    else .ok (false, rest)

def expect (word : String) (problem : Problem) : Reading Unit := do
  unless ← accept word do fail problem

def newLine : Reading Bool := do
  if ← accept "\n" then return true
  accept "\r\n"

def spaces : Reading Unit := do
  let _ ← takeWhile isSpace

def comment : Reading Unit := do
  if ← accept "#" then
    let _ ← takeWhile isTextChar

/-- Takes what may stand after an expression on its line, and the end of the
line. -/
def lineEnd (problem : Problem) : Reading Unit := do
  spaces
  comment
  if (← peek).isNone then return ()
  unless ← newLine do fail problem

/-- Takes white space, comments and ends of lines, in at most so many steps. -/
def blank : Nat → Reading Unit
  | 0 => return ()
  | fuel + 1 => do
    spaces
    comment
    if ← newLine then blank fuel

end Reading

end Toml

end SymbolIndex
