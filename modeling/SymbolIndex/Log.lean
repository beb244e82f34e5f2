import SymbolIndex.Text.Blank

/-!
# Log events

An event has a level, the name of the part of the program that it comes from,
and a message.  A filter is a list of directives; of the directives whose
target begins an event's target the longest decides whether the event is shown.
-/

namespace SymbolIndex

inductive LogLevel where
  | error
  | warn
  | info
  | debug
  | trace
  deriving DecidableEq, Repr

namespace LogLevel

def rank : LogLevel → Nat
  | error => 1
  | warn => 2
  | info => 3
  | debug => 4
  | trace => 5

def text : LogLevel → String
  | error => "ERROR"
  | warn => "WARN"
  | info => "INFO"
  | debug => "DEBUG"
  | trace => "TRACE"

end LogLevel

structure LogEvent where
  level : LogLevel
  target : String
  message : String
  deriving DecidableEq, Repr

/-- Which events of which targets are shown. -/
structure LogDirective where
  /-- The beginning of the targets that this is about; all of them if there is
  none. -/
  target : Option String
  /-- The rank of the least urgent level that is shown, zero to show nothing. -/
  threshold : Nat
  deriving DecidableEq, Repr

inductive LogDirectiveError where
  | malformed
  | unknownLevel
  deriving DecidableEq, Repr

namespace LogDirectiveError

def message : LogDirectiveError → String
  | malformed => "invalid filter directive"
  | unknownLevel =>
    "error parsing level filter: expected one of \"off\", \"error\", " ++
      "\"warn\", \"info\", \"debug\", \"trace\", or a number 0-5"

end LogDirectiveError

namespace LogDirective

def namedThresholds : List (String × Nat) :=
  [("off", 0), ("error", 1), ("warn", 2), ("info", 3), ("debug", 4), ("trace", 5),
    ("0", 0), ("1", 1), ("2", 2), ("3", 3), ("4", 4), ("5", 5)]

def threshold? (name : String) : Option Nat :=
  namedThresholds.lookup (String.ofList (name.toList.map Char.toLower))

def startsTarget (c : Char) : Bool :=
  c.isAlphanum || c == '-' || c == ':' || c == '_' || c.toNat ≥ 128

/-- The directive that a text describes: a threshold for every target, a target
all of whose events are shown, or a target and a threshold around an equals
sign.  Without a threshold behind the sign all events are shown. -/
def read (text : String) : Except LogDirectiveError LogDirective :=
  let cs := Text.trimChars text.toList
  match cs with
  | [] => .ok ⟨none, 1⟩
  | first :: _ =>
    if !startsTarget first || cs.contains '[' then .error .malformed
    else
      let name := String.ofList (cs.takeWhile (· ≠ '='))
      match cs.dropWhile (· ≠ '=') with
      | ['='] => .ok ⟨some name, LogLevel.trace.rank⟩
      | '=' :: level =>
        match threshold? (String.ofList level) with
        | some threshold => .ok ⟨some name, threshold⟩
        | none => .error .unknownLevel
      | _ =>
        match threshold? name with
        | some threshold => .ok ⟨none, threshold⟩
        | none => .ok ⟨some name, LogLevel.trace.rank⟩

def covers (directive : LogDirective) (target : String) : Bool :=
  match directive.target with
  | none => true
  | some name => name.toList.isPrefixOf target.toList

def specificity (directive : LogDirective) : Nat :=
  match directive.target with
  | none => 0
  | some name => name.utf8ByteSize + 1

end LogDirective

/-- A list of directives.  Of two directives for one target the later counts. -/
structure LogFilter where
  directives : List LogDirective
  deriving DecidableEq, Repr

namespace LogFilter

/-- The directive for a target: the most specific one that covers it, and the
later of two that are equally specific. -/
def directiveFor (filter : LogFilter) (target : String) : Option LogDirective :=
  (filter.directives.filter (·.covers target)).foldl
    (fun best next =>
      match best with
      | none => some next
      | some best => if best.specificity ≤ next.specificity then some next else some best)
    none

/-- Whether an event is shown.  Events that no directive covers are not. -/
def shows (filter : LogFilter) (event : LogEvent) : Bool :=
  match filter.directiveFor event.target with
  | some directive => event.level.rank ≤ directive.threshold
  | none => false

/-- The filter that directives between commas describe, with the directives
that could not be read.  Without any directive only errors are shown. -/
def read (text : String) : LogFilter × List (String × LogDirectiveError) :=
  let parts := (text.splitOn ",").filter (· ≠ "")
  let (directives, refused) := parts.foldl
    (fun (directives, refused) part =>
      match LogDirective.read part with
      | .ok directive => (directives ++ [directive], refused)
      | .error error => (directives, refused ++ [(part, error)]))
    ([], [])
  if directives.isEmpty then (⟨[⟨none, 1⟩]⟩, refused) else (⟨directives⟩, refused)

end LogFilter

end SymbolIndex
