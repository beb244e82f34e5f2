import SymbolIndex.Log
import SymbolIndex.Machine.FileTree

/-!
# Sessions

A session is the dialogue of a program with the machine that it runs on: it
ends with a value, or asks for something and goes on with the answer.  A session
is data, so what it does can be read off it, on a machine that is a value as
well as on a real one.
-/

namespace SymbolIndex

structure ProgramOutput where
  output : ByteArray
  errors : ByteArray
  succeeded : Bool

/-- Why workers cannot be started. -/
inductive WorkersError where
  /-- The machine refuses a thread. -/
  | threads (reason : String)
  /-- There is no room for the queue, and the program stops where it asks for it. -/
  | queue
  deriving DecidableEq, Repr

inductive Request where
  | readFile (path : FilePath)
  | kind (path : FilePath)
  | list (path : FilePath)
  | walk (path : FilePath)
  | makeDirectories (path : FilePath)
  | writeFile (path : FilePath) (content : ByteArray)
  | makeTemporary (dir : FilePath)
  | removeFile (path : FilePath)
  | rename (source destination : FilePath)
  /-- Run a program in a directory, or in the working directory. -/
  | runProgram (program : String) (arguments : List String) (dir : Option FilePath)
  | workingDirectory
  | environment
  | processors
  /-- Whether the program was built to stop where a product does not fit in a machine
  word. -/
  | checksOverflow
  /-- Start some threads and make a queue with some places for what they come to. -/
  | startWorkers (threads places : Nat)
  /-- Nanoseconds since some moment. -/
  | clock
  | print (text : String)
  | printError (text : String)
  | log (event : LogEvent)

/-- What a machine answers to a request. -/
def Request.Answer : Request → Type
  | readFile _ => Except FileError ByteArray
  | kind _ => Option EntryKind
  | list _ => Except FileError (List (String × EntryKind))
  | walk _ => Except FileError (List (FilePath × Except FileError EntryKind))
  | makeDirectories _ => Except FileError Unit
  | writeFile _ _ => Except FileError Unit
  | makeTemporary _ => Except FileError FilePath
  | removeFile _ => Except FileError Unit
  | rename _ _ => Except FileError Unit
  | runProgram _ _ _ => Option ProgramOutput
  | workingDirectory => FilePath
  | environment => List (String × String)
  | processors => Nat
  | checksOverflow => Bool
  | startWorkers _ _ => Except WorkersError Unit
  | clock => Nat
  | print _ => Unit
  | printError _ => Unit
  | log _ => Unit

/-- A dialogue that ends with a value. -/
inductive Session (α : Type) where
  | done (value : α)
  | ask (request : Request) (next : request.Answer → Session α)

namespace Session

def bind {α β : Type} : Session α → (α → Session β) → Session β
  | done value, next => next value
  | ask request more, next => ask request fun answer => (more answer).bind next

instance : Monad Session where
  pure := done
  bind := bind

def request (request : Request) : Session request.Answer :=
  ask request done

def readFile (path : FilePath) : Session (Except FileError ByteArray) :=
  request (.readFile path)

def readText (path : FilePath) : Session (Except FileError String) := do
  match ← readFile path with
  | .error error => return .error error
  | .ok bytes =>
    match String.fromUTF8? bytes with
    | some text => return .ok text
    | none => return .error .notText

def kind (path : FilePath) : Session (Option EntryKind) :=
  request (.kind path)

def pathExists (path : FilePath) : Session Bool := do
  return (← kind path).isSome

def isFile (path : FilePath) : Session Bool := do
  return (← kind path) == some .file

def isDirectory (path : FilePath) : Session Bool := do
  return (← kind path) == some .directory

def list (path : FilePath) : Session (Except FileError (List (String × EntryKind))) :=
  request (.list path)

def walk (path : FilePath) :
    Session (Except FileError (List (FilePath × Except FileError EntryKind))) :=
  request (.walk path)

def makeDirectories (path : FilePath) : Session (Except FileError Unit) :=
  request (.makeDirectories path)

def writeFile (path : FilePath) (content : ByteArray) : Session (Except FileError Unit) :=
  request (.writeFile path content)

def makeTemporary (dir : FilePath) : Session (Except FileError FilePath) :=
  request (.makeTemporary dir)

def removeFile (path : FilePath) : Session (Except FileError Unit) :=
  request (.removeFile path)

def rename (source destination : FilePath) : Session (Except FileError Unit) :=
  request (.rename source destination)

/-- Runs a program; `none` if it cannot be started. -/
def runProgram (program : String) (arguments : List String) (dir : Option FilePath) :
    Session (Option ProgramOutput) :=
  request (.runProgram program arguments dir)

def workingDirectory : Session FilePath :=
  request .workingDirectory

def environment : Session (List (String × String)) :=
  request .environment

def processors : Session Nat :=
  request .processors

def checksOverflow : Session Bool :=
  request .checksOverflow

def startWorkers (threads places : Nat) : Session (Except WorkersError Unit) :=
  request (.startWorkers threads places)

def clock : Session Nat :=
  request .clock

def printLine (line : String) : Session Unit :=
  request (.print (line ++ "\n"))

def printErrorLine (line : String) : Session Unit :=
  request (.printError (line ++ "\n"))

def log (level : LogLevel) (target message : String) : Session Unit :=
  request (.log ⟨level, target, message⟩)

/-- A session with only those events reported that a filter shows. -/
def withLogFilter {α : Type} (filter : LogFilter) : Session α → Session α
  | done value => done value
  | ask (.log event) next =>
    if filter.shows event then ask (.log event) fun answer => (next answer).withLogFilter filter
    else (next ()).withLogFilter filter
  | ask request next => ask request fun answer => (next answer).withLogFilter filter

end Session

/-- A session that ends with a value or an error. -/
abbrev Attempt (ε α : Type) := ExceptT ε Session α

namespace Attempt

/-- The attempt that takes a session's error, put into other words, for its
own. -/
def ofSession {δ ε α : Type} (wrap : δ → ε) (session : Session (Except δ α)) :
    Attempt ε α :=
  ExceptT.mk do
    match ← session with
    | .ok value => return .ok value
    | .error error => return .error (wrap error)

def mapError {δ ε α : Type} (wrap : δ → ε) (attempt : Attempt δ α) : Attempt ε α :=
  ofSession wrap attempt.run

end Attempt

end SymbolIndex
