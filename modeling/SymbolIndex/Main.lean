import SymbolIndex.CommandLine.Run
import SymbolIndex.Machine.Basic
import SymbolIndex.Text.Lossy

/-!
# The executable

Answers the requests of sessions by the files, the environment and the streams
of the machine that the program runs on.  Nothing is decided here.  Other
programs are never started.
-/

namespace SymbolIndex

namespace RealMachine

def fileError : IO.Error → FileError
  | .noFileOrDirectory .. => .notFound
  | .alreadyExists .. => .alreadyExists
  | .resourceBusy .. => .busy
  | .inappropriateType _ 21 _ | .illegalOperation 21 _ => .isDirectory
  | .inappropriateType .. => .notDirectory
  | .invalidArgument _ 36 _ | .resourceExhausted _ 36 _ => .nameTooLong
  | error => .other (toString error)

def attempt {α : Type} (action : IO α) : IO (Except FileError α) := do
  match ← action.toBaseIO with
  | .ok value => return .ok value
  | .error error => return .error (fileError error)

def kindOf (path : FilePath) : IO (Option EntryKind) := do
  let place := (← IO.currentDir) / path.text
  match ← place.metadata.toBaseIO with
  | .ok data => return some (if data.type == .dir then .directory else .file)
  | .error _ => return none

def listOf (path : FilePath) : IO (List (String × EntryKind)) := do
  let place := (← IO.currentDir) / path.text
  let entries ← place.readDir
  entries.toList.mapM fun entry => do
    let kind ← kindOf (path.child entry.fileName)
    return (entry.fileName, kind.getD .file)

partial def walkOf (path : FilePath) : IO (List (FilePath × Except FileError EntryKind)) := do
  match ← kindOf path with
  | none => return [(path, .error .notFound)]
  | some .file => return [(path, .ok .file)]
  | some .directory =>
    match ← attempt (listOf path) with
    | .error error => return [(path, .error error)]
    | .ok entries =>
      let below ← entries.mapM fun (name, _) => walkOf (path.child name)
      return (path, .ok .directory) :: below.flatten

/-- Makes a new empty file in a directory, with the first name from a number on
that no entry has. -/
partial def makeTemporaryFrom (dir : FilePath) (number : Nat) : IO FilePath := do
  let path := dir.child s!".tmp{number}"
  if (← kindOf path).isSome then makeTemporaryFrom dir (number + 1)
  else
    IO.FS.writeBinFile path.text .empty
    return path

def environmentEntries : IO (List (String × String)) := do
  let bytes ← IO.FS.readBinFile "/proc/self/environ"
  let entries := Text.splitOnChar '\x00' (Text.decodeLossy bytes).toList
  return entries.filterMap fun entry =>
    match entry.dropWhile (· ≠ '=') with
    | '=' :: value => some (String.ofList (entry.takeWhile (· ≠ '=')), String.ofList value)
    | _ => none

def processors : IO Nat := do
  let described ← IO.FS.readFile "/proc/cpuinfo"
  return (Text.lines described).countP fun line => line.startsWith "processor"

def showEvent (event : LogEvent) : String :=
  let level := event.level.text
  String.ofList (List.replicate (5 - level.length) ' ') ++
    s!"{level} {event.target}: {event.message}"

/-- The answer to a request. -/
def answer : (request : Request) → IO request.Answer
  | .readFile path => attempt (IO.FS.readBinFile path.text)
  | .kind path => kindOf path
  | .list path => attempt (listOf path)
  | .walk path => attempt (walkOf path)
  | .makeDirectories path =>
    if path.text = "" then return .ok () else attempt (IO.FS.createDirAll path.text)
  | .writeFile path content => attempt (IO.FS.writeBinFile path.text content)
  | .makeTemporary dir => attempt (makeTemporaryFrom dir 0)
  | .removeFile path => attempt (IO.FS.removeFile path.text)
  | .rename source destination => attempt (IO.FS.rename source.text destination.text)
  | .runProgram _ _ _ => return none
  | .workingDirectory => do return ⟨(← IO.currentDir).toString⟩
  | .environment => environmentEntries
  | .processors => processors
  | .checksOverflow => return true
  | .startWorkers _ places => return Machine.startWorkers places
  | .clock => IO.monoNanosNow
  | .print text => IO.print text
  | .printError text => IO.eprint text
  | .log event => IO.println (showEvent event)

/-- Carries out a session. -/
def carryOut {α : Type} : Session α → IO α
  | .done value => return value
  | .ask request next => do carryOut (next (← answer request))

end RealMachine

end SymbolIndex

def main (arguments : List String) : IO UInt32 := do
  let code ← SymbolIndex.RealMachine.carryOut (SymbolIndex.CommandLine.run arguments)
  return code.toUInt32
