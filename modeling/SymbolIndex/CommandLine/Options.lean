import SymbolIndex.Text.Digits

/-!
# Options

The options of a level of the command line, and how arguments are told to be
options, values of options, or neither.  A value stands in the next argument, or
behind an equals sign in the same one, or right behind the letter of an option.
-/

namespace SymbolIndex

namespace CommandLine

inductive OptionKind where
  | flag
  | text
  | path
  | number
  deriving DecidableEq, Repr

structure OptionForm where
  name : String
  letter : Option Char
  kind : OptionKind
  deriving DecidableEq, Repr

/-- The options at one level of the command line, and how many arguments there
are beside them. -/
structure Level where
  options : List OptionForm
  hasVersion : Bool
  /-- Whether the first argument beside the options names a command, with which
  the level ends. -/
  hasCommands : Bool
  places : Nat

/-- Why the arguments are no command to run. -/
inductive UsageEnd where
  | help
  | version
  | wrong (reason : String)
  deriving DecidableEq, Repr

/-- What is given at a level. -/
structure Given where
  /-- The options with their values; a flag has an empty one. -/
  values : List (String × String) := []
  /-- The arguments beside the options. -/
  places : List String := []
  deriving DecidableEq, Repr

namespace Given

def value? (given : Given) (name : String) : Option String :=
  given.values.lookup name

def hasFlag (given : Given) (name : String) : Bool :=
  (given.value? name).isSome

end Given

/-- The number that digits after an optional plus sign stand for, if it fits into
64 bits. -/
def number? (text : String) : Option Nat :=
  let cs := text.toList
  let digits := if cs.head? = some '+' then cs.tail else cs
  let value := Text.natOfDigits 10 digits
  if !digits.isEmpty && digits.all Char.isDigit && value < UInt64.size then some value else none

def OptionKind.accepts : OptionKind → String → Bool
  | flag, _ | text, _ => true
  | path, value => value ≠ ""
  | number, value => (number? value).isSome

structure Progress where
  given : Given := {}
  /-- The option whose value comes next. -/
  pending : Option OptionForm := none
  /-- Whether two dashes have ended the options. -/
  ended : Bool := false

namespace Progress

def give (progress : Progress) (option : OptionForm) (value : String) :
    Except UsageEnd Progress :=
  if progress.given.hasFlag option.name then
    .error (.wrong s!"the argument '--{option.name}' cannot be used multiple times")
  else if option.kind.accepts value then
    .ok { progress with
      given := { progress.given with
        values := progress.given.values ++ [(option.name, value)] }
      pending := none }
  else .error (.wrong s!"invalid value '{value}' for '--{option.name}'")

/-- What has been read after the long name of an option, perhaps with a value. -/
def long (level : Level) (progress : Progress) (written : List Char) :
    Except UsageEnd Progress :=
  let name := String.ofList (written.takeWhile (· ≠ '='))
  let value :=
    match written.dropWhile (· ≠ '=') with
    | '=' :: value => some (String.ofList value)
    | _ => none
  match level.options.find? (·.name = name), value with
  | some option, none =>
    if option.kind = .flag then progress.give option ""
    else .ok { progress with pending := some option }
  | some option, some value =>
    if option.kind = .flag then .error (.wrong s!"unexpected value for '--{name}'")
    else progress.give option value
  | none, none =>
    if name = "help" then .error .help
    else if name = "version" && level.hasVersion then .error .version
    else .error (.wrong s!"unexpected argument '--{name}' found")
  | none, some _ => .error (.wrong s!"unexpected argument '--{name}' found")

def short (level : Level) (progress : Progress) : List Char → Except UsageEnd Progress
  | [] => .ok progress
  | letter :: rest =>
    match level.options.find? (·.letter = some letter) with
    | some option =>
      if option.kind = .flag then
        match progress.give option "" with
        | .ok progress => progress.short level rest
        | .error reason => .error reason
      else
        match rest with
        | [] => .ok { progress with pending := some option }
        | '=' :: value => progress.give option (String.ofList value)
        | value => progress.give option (String.ofList value)
    | none =>
      if letter = 'h' then .error .help
      else if letter = 'V' && level.hasVersion then .error .version
      else .error (.wrong s!"unexpected argument '-{letter}' found")

def place (level : Level) (progress : Progress) (argument : String) :
    Except UsageEnd Progress :=
  if progress.given.places.length < level.places then
    .ok { progress with
      given := { progress.given with places := progress.given.places ++ [argument] } }
  else .error (.wrong s!"unexpected argument '{argument}' found")

end Progress

def looksLikeOption (argument : String) : Bool :=
  match argument.toList with
  | '-' :: _ :: _ => true
  | _ => false

/-- Reads the arguments of a level, and gives those that come after it. -/
def scan (level : Level) (progress : Progress) :
    List String → Except UsageEnd (Given × List String)
  | [] =>
    match progress.pending with
    | some option => .error (.wrong s!"a value is required for '--{option.name}'")
    | none => .ok (progress.given, [])
  | argument :: rest =>
    match progress.pending with
    | some option =>
      if looksLikeOption argument then
        .error (.wrong s!"a value is required for '--{option.name}'")
      else do scan level (← progress.give option argument) rest
    | none =>
      if progress.ended then do scan level (← progress.place level argument) rest
      else
        match argument.toList with
        | ['-', '-'] => scan level { progress with ended := true } rest
        | '-' :: '-' :: name => do scan level (← progress.long level name) rest
        | '-' :: letter :: letters => do
          scan level (← progress.short level (letter :: letters)) rest
        | _ =>
          if level.hasCommands then .ok (progress.given, argument :: rest)
          else do scan level (← progress.place level argument) rest

end CommandLine

end SymbolIndex
