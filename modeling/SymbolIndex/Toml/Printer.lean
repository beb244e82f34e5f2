import SymbolIndex.Json.Printer

/-!
# Printing TOML

How keys and strings are written.  A string is written in the first of these
ways that can hold it as it is: between double quotes, between single quotes,
between three double or three single quotes.  A string that none of them can
hold is written with escapes.
-/

namespace SymbolIndex

namespace Toml

/-- A control character other than the tab. -/
def needsCode (c : Char) : Bool :=
  (c.toNat < 0x20 && c ≠ '\t' && c ≠ '\n') || c.toNat = 0x7F

def longestRun (c : Char) : List Char → Nat → Nat
  | [], run => run
  | d :: rest, run =>
    if d = c then longestRun c rest (run + 1) else max run (longestRun c rest 0)

def isPlainBasic (cs : List Char) : Bool :=
  cs.all fun c => !needsCode c && c ≠ '\\' && c ≠ '"' && c ≠ '\n'

def isPlainLiteral (cs : List Char) : Bool :=
  cs.all fun c => !needsCode c && c ≠ '\'' && c ≠ '\n'

def isPlainMultilineBasic (cs : List Char) : Bool :=
  (cs.all fun c => !needsCode c && c ≠ '\\') && longestRun '"' cs 0 ≤ 2

def isPlainMultilineLiteral (cs : List Char) : Bool :=
  (cs.all fun c => !needsCode c) && longestRun '\'' cs 0 ≤ 2

def upperHexDigit (n : Nat) : Char :=
  (Json.hexDigit n).toUpper

/-- How a character is written where escapes are read.  Quotes and line feeds
are written as they are if there is room for them. -/
def escapeChar (keepQuote keepFeed : Bool) (c : Char) : List Char :=
  if c = '"' then if keepQuote then [c] else ['\\', '"']
  else if c = '\n' then if keepFeed then [c] else ['\\', 'n']
  else if c = '\\' then ['\\', '\\']
  else if c = '\x08' then ['\\', 'b']
  else if c = '\t' then ['\\', 't']
  else if c = '\x0c' then ['\\', 'f']
  else if c = '\r' then ['\\', 'r']
  else if needsCode c then
    ['\\', 'u', '0', '0', upperHexDigit (c.toNat / 16), upperHexDigit (c.toNat % 16)]
  else [c]

def basicChars (cs : List Char) : List Char :=
  '"' :: (cs.flatMap (escapeChar false false) ++ ['"'])

/-- The characters of a string between three double quotes, where every third
quote in a row is escaped.  `quotes` counts those just before. -/
def multilineChars (quotes : Nat) : List Char → List Char
  | [] => []
  | c :: rest =>
    if c = '"' then
      if quotes < 2 then c :: multilineChars (quotes + 1) rest
      else '\\' :: c :: multilineChars 0 rest
    else escapeChar true true c ++ multilineChars 0 rest

/-- Three quotes, and a line feed if the string goes on over lines. -/
def openMultiline (quote : Char) (cs : List Char) : List Char :=
  [quote, quote, quote] ++ if cs.contains '\n' then ['\n'] else []

def stringChars (cs : List Char) : List Char :=
  if isPlainBasic cs then basicChars cs
  else if isPlainLiteral cs then '\'' :: (cs ++ ['\''])
  else if isPlainMultilineBasic cs then
    openMultiline '"' cs ++ multilineChars 0 cs ++ ['"', '"', '"']
  else if isPlainMultilineLiteral cs then openMultiline '\'' cs ++ cs ++ ['\'', '\'', '\'']
  else if cs.contains '\n' then
    openMultiline '"' cs ++ multilineChars 0 cs ++ ['"', '"', '"']
  else basicChars cs

def printString (s : String) : String :=
  String.ofList (stringChars s.toList)

def isBareKey (cs : List Char) : Bool :=
  !cs.isEmpty && cs.all fun c => c.isAlphanum || c == '_' || c == '-'

def keyChars (cs : List Char) : List Char :=
  if isBareKey cs then cs
  else if isPlainBasic cs then basicChars cs
  else if isPlainLiteral cs then '\'' :: (cs ++ ['\''])
  else basicChars cs

def printKey (s : String) : String :=
  String.ofList (keyChars s.toList)

def line (key value : String) : String :=
  s!"{printKey key} = {value}\n"

end Toml

end SymbolIndex
