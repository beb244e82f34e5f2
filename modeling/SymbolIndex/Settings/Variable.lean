import SymbolIndex.Settings.Value
import SymbolIndex.Text.Blank
import SymbolIndex.Text.Digits
import SymbolIndex.Text.Lines

/-!
# Settings in environment variables

A variable whose name starts with `SYMDEX_` sets something.  The rest of its
name tells what, with two underscores between the names of tables.  Its text is
read as a truth value, a number, a quoted text or character, a list in brackets or
a table in braces if it is one, and as itself otherwise.
-/

namespace SymbolIndex

namespace SettingValue

def isSpace (c : Char) : Bool :=
  c == ' ' || c == '\t' || c == '\n' || c == '\r' || c == '\x0c'

def isMark (c : Char) : Bool :=
  c == ',' || c == '\x7b' || c == '\x7d' || c == '[' || c == ']'

def isKeyChar (c : Char) : Bool :=
  c.isAlphanum || c == '_' || c == '-'

def escapedChar? : Char → Option Char
  | '"' => some '"'
  | '\\' => some '\\'
  | 'b' => some '\x08'
  | 'f' => some '\x0c'
  | 'n' => some '\n'
  | 'r' => some '\r'
  | 't' => some '\t'
  | _ => none

/-- The character whose number is written with exactly so many digits. -/
def charOfDigits? (count : Nat) (digits : List Char) : Option Char :=
  let number := Text.natOfDigits 16 digits
  if digits.length = count && digits.all (Text.isDigitIn 16) && number.isValidChar then
    some (Char.ofNat number)
  else none

/-- The characters of a quoted text up to its quote, in at most so many steps,
and what follows. -/
def quotedWithin : Nat → List Char → Option (List Char × List Char)
  | 0, _ | _, [] => none
  | _ + 1, '"' :: rest => some ([], rest)
  | fuel + 1, '\\' :: letter :: rest => do
    let (c, rest) ←
      match letter with
      | 'u' => (charOfDigits? 4 (rest.take 4)).map fun c => (c, rest.drop 4)
      | 'U' => (charOfDigits? 8 (rest.take 8)).map fun c => (c, rest.drop 8)
      | letter => (escapedChar? letter).map fun c => (c, rest)
    let (more, after) ← quotedWithin fuel rest
    return (c :: more, after)
  | fuel + 1, c :: rest => do
    let (more, after) ← quotedWithin fuel rest
    return (c :: more, after)

def quoted? (cs : List Char) : Option (String × List Char) :=
  (quotedWithin (cs.length + 1) cs).map fun (inner, rest) => (String.ofList inner, rest)

/-- Whether characters are a number with a point, which may have an exponent. -/
def isReal (cs : List Char) : Bool :=
  let unsigned :=
    match cs with
    | '+' :: rest | '-' :: rest => rest
    | cs => cs
  let whole := unsigned.takeWhile Char.isDigit
  match unsigned.dropWhile Char.isDigit with
  | '.' :: rest =>
    let fraction := rest.takeWhile Char.isDigit
    (!whole.isEmpty || !fraction.isEmpty) &&
      match rest.dropWhile Char.isDigit with
      | [] => true
      | mark :: exponent =>
        let digits :=
          match exponent with
          | '+' :: digits | '-' :: digits => digits
          | digits => digits
        (mark = 'e' || mark = 'E') && !digits.isEmpty && digits.all Char.isDigit
  | _ => false

def integer? (cs : List Char) : Option Int :=
  let number := fun digits =>
    if !digits.isEmpty && digits.all Char.isDigit then
      some (Text.natOfDigits 10 digits : Int)
    else none
  match cs with
  | '-' :: digits => do
    let value ← number digits
    if Int64.minValue.toInt ≤ -value then some (-value) else none
  | _ => do
    let value ← number (if cs.head? = some '+' then cs.tail else cs)
    if value < UInt64.size then some value else none

def ofWord (cs : List Char) : SettingValue :=
  if isReal cs then real
  else
    match integer? cs with
    | some value => integer value
    | none => text (String.ofList cs)

def key? (cs : List Char) : Option (String × List Char) :=
  match cs with
  | '"' :: rest => quoted? rest
  | _ =>
    let name := cs.takeWhile isKeyChar
    if name.isEmpty then none else some (String.ofList name, cs.dropWhile isKeyChar)

mutual

/-- Takes a value with the white space around it, in at most so many steps, and
gives what follows. -/
def valueWithin : Nat → List Char → Option (SettingValue × List Char)
  | 0, _ => none
  | fuel + 1, cs => do
    let (value, rest) ←
      match cs.dropWhile isSpace with
      | 't' :: 'r' :: 'u' :: 'e' :: rest => some (bool true, rest)
      | 'f' :: 'a' :: 'l' :: 's' :: 'e' :: rest => some (bool false, rest)
      | '"' :: rest => (quoted? rest).map fun (value, rest) => (text value, rest)
      | '\'' :: c :: '\'' :: rest => some (text (String.singleton c), rest)
      | '\'' :: _ => none
      | '[' :: rest => (itemsWithin fuel rest).map fun (items, rest) => (list items, rest)
      | '\x7b' :: rest =>
        (entriesWithin fuel rest).map fun (entries, rest) =>
          (table (entriesOverlaid [] entries), rest)
      | cs =>
        let word := cs.takeWhile fun c => !isMark c
        some (ofWord (Text.trimChars word), cs.dropWhile fun c => !isMark c)
    return (value, rest.dropWhile isSpace)

def itemsWithin : Nat → List Char → Option (List SettingValue × List Char)
  | 0, _ => none
  | fuel + 1, cs =>
    match cs with
    | ']' :: rest => some ([], rest)
    | cs => do
      let (item, rest) ← valueWithin fuel cs
      match rest with
      | ',' :: rest => do
        let (items, after) ← itemsWithin fuel rest
        return (item :: items, after)
      | ']' :: rest => some ([item], rest)
      | _ => none

def entriesWithin : Nat → List Char → Option (List (String × SettingValue) × List Char)
  | 0, _ => none
  | fuel + 1, cs =>
    match cs with
    | '\x7d' :: rest => some ([], rest)
    | cs => do
      let (name, rest) ← key? (cs.dropWhile isSpace)
      match rest.dropWhile isSpace with
      | '=' :: rest => do
        let (value, rest) ← valueWithin fuel rest
        match rest with
        | ',' :: rest => do
          let (entries, after) ← entriesWithin fuel rest
          return ((name, value) :: entries, after)
        | '\x7d' :: rest => some ([(name, value)], rest)
        | _ => none
      | _ => none

end

def ofVariable (written : String) : SettingValue :=
  match valueWithin (2 * written.length + 2) written.toList with
  | some (value, []) => value
  | _ => text written

end SettingValue

def variableMark : String := "SYMDEX_"

/-- Characters with every two underscores in a row replaced by a point. -/
def pointUnderscores : List Char → List Char
  | '_' :: '_' :: rest => '.' :: pointUnderscores rest
  | c :: rest => c :: pointUnderscores rest
  | [] => []

/-- What a variable sets: the names of tables and the name in the last of them.
Letters count without their case. -/
def settingPath? (name : String) : Option (List String) :=
  let lowered := name.toList.map Char.toLower
  let mark := variableMark.toList.map Char.toLower
  if mark.isPrefixOf lowered then
    let names := Text.splitOnChar '.' (pointUnderscores (lowered.drop mark.length))
    if names.any List.isEmpty then none else some (names.map String.ofList)
  else none

namespace SettingValue

/-- What the variables of an environment set, later ones over earlier ones. -/
def ofEnvironment (environment : List (String × String)) : SettingValue :=
  environment.foldl
    (fun settings (name, written) =>
      match settingPath? name with
      | some path => settings.overlaid ((ofVariable written).nested path)
      | none => settings)
    (table [])

end SettingValue

end SymbolIndex
