import SymbolIndex.Json.Basic
import SymbolIndex.Text.Digits

/-!
# JSON tokens

The lexical grammar of JSON.  `tokens?` cuts a text into tokens and drops the
white space between them; it refuses text that is no sequence of tokens.
-/

namespace SymbolIndex

namespace Json

/-- The smallest piece of JSON text that means something. -/
inductive Token where
  | openBrace
  | closeBrace
  | openBracket
  | closeBracket
  | colon
  | comma
  /-- A string, number, or name that is a value by itself. -/
  | scalar (value : Json)
  deriving Repr

def isSpace (c : Char) : Bool :=
  c == ' ' || c == '\t' || c == '\n' || c == '\r'

def hexUnit? (a b c d : Char) : Option Nat := do
  let a ← Text.hexDigit? a
  let b ← Text.hexDigit? b
  let c ← Text.hexDigit? c
  let d ← Text.hexDigit? d
  return ((a * 16 + b) * 16 + c) * 16 + d

/-- A piece of a string literal: a character, or a unit of UTF-16 that was
written as an escape. -/
inductive Piece where
  | char (c : Char)
  | unit (code : Nat)
  deriving Repr, DecidableEq

def escapedChar? : Char → Option Char
  | '"' => some '"'
  | '\\' => some '\\'
  | '/' => some '/'
  | 'b' => some '\x08'
  | 'f' => some '\x0c'
  | 'n' => some '\n'
  | 'r' => some '\r'
  | 't' => some '\t'
  | _ => none

/-- The pieces of a string literal up to its closing quote, and what follows. -/
def literalPieces? : List Char → Option (List Piece × List Char)
  | [] => none
  | '"' :: rest => some ([], rest)
  | '\\' :: 'u' :: a :: b :: c :: d :: rest => do
    let code ← hexUnit? a b c d
    let (pieces, after) ← literalPieces? rest
    return (.unit code :: pieces, after)
  | '\\' :: letter :: rest => do
    let c ← escapedChar? letter
    let (pieces, after) ← literalPieces? rest
    return (.char c :: pieces, after)
  | c :: rest =>
    if c.toNat < 0x20 || c == '\\' then none
    else do
      let (pieces, after) ← literalPieces? rest
      return (.char c :: pieces, after)

def isHighSurrogate (code : Nat) : Bool := 0xD800 ≤ code && code ≤ 0xDBFF

def isLowSurrogate (code : Nat) : Bool := 0xDC00 ≤ code && code ≤ 0xDFFF

def surrogatePair (high low : Nat) : Char :=
  Char.ofNat (0x10000 + (high - 0xD800) * 0x400 + (low - 0xDC00))

/-- The characters that pieces stand for, unless half of a pair is left. -/
def charsOfPieces? : List Piece → Option (List Char)
  | [] => some []
  | .char c :: rest => (charsOfPieces? rest).map (c :: ·)
  | [.unit code] =>
    if isHighSurrogate code || isLowSurrogate code then none else some [Char.ofNat code]
  | .unit code :: .unit next :: rest =>
    if isHighSurrogate code then
      if isLowSurrogate next then (charsOfPieces? rest).map (surrogatePair code next :: ·)
      else none
    else if isLowSurrogate code then none
    else (charsOfPieces? (.unit next :: rest)).map (Char.ofNat code :: ·)
  | .unit code :: .char c :: rest =>
    if isHighSurrogate code || isLowSurrogate code then none
    else (charsOfPieces? (.char c :: rest)).map (Char.ofNat code :: ·)

def textOfPieces (pieces : List Piece) : Json :=
  .text ((charsOfPieces? pieces).map String.ofList)

/-- The part of a number after its integer digits: whether it has a fraction or
an exponent, and what follows. -/
def numberTail? (cs : List Char) : Option (Bool × List Char) := do
  let (hasFraction, cs) ←
    match cs with
    | '.' :: rest =>
      if (rest.takeWhile Char.isDigit).isEmpty then none
      else some (true, rest.dropWhile Char.isDigit)
    | _ => some (false, cs)
  let isMark := fun c => c == 'e' || c == 'E'
  match cs with
  | c :: rest =>
    if isMark c then
      let rest :=
        match rest with
        | '+' :: rest | '-' :: rest => rest
        | _ => rest
      if (rest.takeWhile Char.isDigit).isEmpty then none
      else some (true, rest.dropWhile Char.isDigit)
    else some (hasFraction, cs)
  | [] => some (hasFraction, cs)

/-- The number at the start of a text, and what follows.  Its sign has been
read. -/
def number? (negative : Bool) (cs : List Char) : Option (Json × List Char) := do
  let (digits, rest) ←
    match cs with
    | '0' :: rest => some (['0'], rest)
    | _ =>
      let digits := cs.takeWhile Char.isDigit
      if digits.isEmpty then none else some (digits, cs.dropWhile Char.isDigit)
  let (isReal, rest) ← numberTail? rest
  let value := Text.natOfDigits 10 digits
  if isReal || (negative && value == 0) then some (.real, rest)
  else if negative then some (.integer (-(value : Int)), rest)
  else some (.integer value, rest)

/-- The first token of a text that does not start with white space, and what
follows it. -/
def token? : List Char → Option (Token × List Char)
  | '{' :: rest => some (.openBrace, rest)
  | '}' :: rest => some (.closeBrace, rest)
  | '[' :: rest => some (.openBracket, rest)
  | ']' :: rest => some (.closeBracket, rest)
  | ':' :: rest => some (.colon, rest)
  | ',' :: rest => some (.comma, rest)
  | '"' :: rest =>
    (literalPieces? rest).map fun (pieces, after) => (.scalar (textOfPieces pieces), after)
  | 't' :: 'r' :: 'u' :: 'e' :: rest => some (.scalar (.bool true), rest)
  | 'f' :: 'a' :: 'l' :: 's' :: 'e' :: rest => some (.scalar (.bool false), rest)
  | 'n' :: 'u' :: 'l' :: 'l' :: rest => some (.scalar .null, rest)
  | '-' :: rest => (number? true rest).map fun (value, after) => (.scalar value, after)
  | cs => (number? false cs).map fun (value, after) => (.scalar value, after)

/-- The tokens of a text that are found in at most `fuel` steps. -/
def tokensWithin : Nat → List Char → Option (List Token)
  | 0, _ => none
  | fuel + 1, cs =>
    match cs.dropWhile isSpace with
    | [] => some []
    | cs => do
      let (first, rest) ← token? cs
      let more ← tokensWithin fuel rest
      return first :: more

def tokens? (s : String) : Option (List Token) :=
  let cs := s.toList
  tokensWithin (cs.length + 1) cs

end Json

end SymbolIndex
