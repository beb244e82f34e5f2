import SymbolIndex.Text.Digits
import SymbolIndex.Text.Lines
import SymbolIndex.Toml.Basic
import SymbolIndex.Toml.Fault

/-!
# Scalars without quotes

The words that stand for truth values, numbers, dates and times.
-/

namespace SymbolIndex

namespace Toml

/-- Whether characters are digits with single underscores between them. -/
def areGroupedDigits (base : Nat) (cs : List Char) : Bool :=
  (Text.splitOnChar '_' cs).all fun group =>
    !group.isEmpty && group.all (Text.isDigitIn base)

/-- Whether characters are the digits of a decimal number, which starts with a
zero only if it is zero. -/
def areDecimalDigits (cs : List Char) : Bool :=
  areGroupedDigits 10 cs && (cs.head? ≠ some '0' || cs.length = 1)

def splitSign : List Char → Bool × List Char
  | '+' :: rest => (false, rest)
  | '-' :: rest => (true, rest)
  | cs => (false, cs)

def boundedInteger (value : Int) : Except Problem Toml :=
  if Int64.minValue.toInt ≤ value && value ≤ Int64.maxValue.toInt then .ok (.integer value)
  else .error .outOfRange

/-- The integer that a word stands for, in a base if digits of one are written. -/
def integerOfWord? (cs : List Char) : Option (Except Problem Toml) :=
  let inBase := fun base digits =>
    if areGroupedDigits base digits then
      some (boundedInteger (Text.natOfDigits base digits))
    else none
  match cs with
  | '0' :: 'x' :: digits => inBase 16 digits
  | '0' :: 'o' :: digits => inBase 8 digits
  | '0' :: 'b' :: digits => inBase 2 digits
  | _ =>
    let (negative, digits) := splitSign cs
    if areDecimalDigits digits then
      let value : Int := Text.natOfDigits 10 digits
      some (boundedInteger (if negative then -value else value))
    else none

def isExponent (cs : List Char) : Bool :=
  areGroupedDigits 10 (splitSign cs).2

/-- Whether characters are what follows the integer digits of a number: a
fraction, an exponent, or both. -/
def isRealTail (cs : List Char) : Bool :=
  let isMark := fun c => c == 'e' || c == 'E'
  match cs with
  | '.' :: rest =>
    areGroupedDigits 10 (rest.takeWhile fun c => !isMark c) &&
      match rest.dropWhile fun c => !isMark c with
      | [] => true
      | _ :: exponent => isExponent exponent
  | c :: exponent => isMark c && isExponent exponent
  | [] => false

def isReal (cs : List Char) : Bool :=
  let (_, cs) := splitSign cs
  let isDigit := fun c => c.isDigit || c == '_'
  cs = ['i', 'n', 'f'] || cs = ['n', 'a', 'n'] ||
    (areDecimalDigits (cs.takeWhile isDigit) && isRealTail (cs.dropWhile isDigit))

def daysIn (year month : Nat) : Nat :=
  if month = 2 then
    if year % 4 = 0 && (year % 100 ≠ 0 || year % 400 = 0) then 29 else 28
  else if month = 4 || month = 6 || month = 9 || month = 11 then 30
  else 31

/-- The number that exactly so many decimal digits at the front stand for, and
what follows them. -/
def fixedDigits? (count : Nat) (cs : List Char) : Option (Nat × List Char) :=
  let digits := cs.take count
  if digits.length = count && digits.all Char.isDigit then
    some (Text.natOfDigits 10 digits, cs.drop count)
  else none

/-- Numbers of two digits between colons, as many as there are upper bounds, and
what follows them. -/
def clock? : List Nat → List Char → Option (List Char)
  | [], cs => some cs
  | [most], cs => do
    let (value, rest) ← fixedDigits? 2 cs
    if value ≤ most then some rest else none
  | most :: bounds, cs => do
    let (value, rest) ← fixedDigits? 2 cs
    match rest with
    | ':' :: rest => if value ≤ most then clock? bounds rest else none
    | _ => none

/-- What follows a time of day with its fraction of a second. -/
def afterTime? (cs : List Char) : Option (List Char) := do
  match ← clock? [23, 59, 60] cs with
  | '.' :: rest =>
    if (rest.takeWhile Char.isDigit).isEmpty then none
    else some (rest.dropWhile Char.isDigit)
  | rest => some rest

/-- Whether characters are the offset of a time from universal time, or nothing. -/
def isOffset : List Char → Bool
  | [] | ['Z'] | ['z'] => true
  | '+' :: rest | '-' :: rest => clock? [23, 59] rest = some []
  | _ => false

def afterDate? (cs : List Char) : Option (List Char) := do
  let (year, rest) ← fixedDigits? 4 cs
  match rest with
  | '-' :: rest =>
    let (month, rest) ← fixedDigits? 2 rest
    match rest with
    | '-' :: rest =>
      let (day, rest) ← fixedDigits? 2 rest
      if 1 ≤ month && month ≤ 12 && 1 ≤ day && day ≤ daysIn year month then some rest
      else none
    | _ => none
  | _ => none

def startsLikeDate (cs : List Char) : Bool :=
  match fixedDigits? 4 cs with
  | some (_, '-' :: _) => true
  | _ => false

def startsLikeTime (cs : List Char) : Bool :=
  match fixedDigits? 2 cs with
  | some (_, ':' :: _) => true
  | _ => false

def isMoment (cs : List Char) : Bool :=
  match afterDate? cs with
  | some [] => true
  | some (mark :: rest) =>
    (mark = 'T' || mark = 't' || mark = ' ') && (afterTime? rest).any isOffset
  | none => afterTime? cs = some []

def ofWord (cs : List Char) : Except Problem Toml :=
  if cs = "true".toList then .ok (.bool true)
  else if cs = "false".toList then .ok (.bool false)
  else if startsLikeDate cs || startsLikeTime cs then
    if isMoment cs then .ok (.moment (String.ofList cs)) else .error .moment
  else
    match integerOfWord? cs with
    | some result => result
    | none => if isReal cs then .ok .real else .error .number

end Toml

end SymbolIndex
