import SymbolIndex.Machine.Session

/-!
# Machines

A machine as a value: its files, the programs installed on it with what each
run of them does, its environment variables, and everything that sessions have
printed and reported on it.  Running a session on a machine gives the session's
value and the machine afterwards.
-/

namespace SymbolIndex

/-- A program with what each of its runs does. -/
structure InstalledProgram where
  name : String
  /-- What the first run does, what the second does, and so on.  All later runs
  fail without output. -/
  outputs : List ProgramOutput

structure ProgramRun where
  program : String
  arguments : List String
  deriving DecidableEq, Repr

/-- A machine that is a value. -/
structure Machine where
  files : FileTree
  programs : List InstalledProgram := []
  environment : List (String × String) := []
  processors : Nat := 2
  runs : List ProgramRun := []
  /-- What was written to the standard output, a piece for each request. -/
  output : List String := []
  errors : List String := []
  events : List LogEvent := []

namespace Machine

/-- What a run of a program does that goes beyond what is known of it. -/
def failedOutput : ProgramOutput := ⟨.empty, .empty, false⟩

def canBeArgument (text : String) : Bool :=
  !text.toList.contains '\x00'

/-- Runs a program.  A program that is not installed, arguments with NUL in
them, and a directory that is not there keep it from starting. -/
def runProgram (machine : Machine) (program : String) (arguments : List String)
    (dir : Option FilePath) : Option ProgramOutput × Machine :=
  let hasDirectory :=
    match dir with
    | none => true
    | some dir => machine.files.kind? dir = some .directory
  match machine.programs.find? (·.name = program) with
  | none => (none, machine)
  | some installed =>
    if hasDirectory && arguments.all canBeArgument then
      let before := machine.runs.countP (·.program = program)
      let output := installed.outputs[before]?.getD failedOutput
      (some output, { machine with runs := machine.runs ++ [⟨program, arguments⟩] })
    else (none, machine)

def change {α : Type} (machine : Machine) (result : Except FileError (α × FileTree)) :
    Except FileError α × Machine :=
  match result with
  | .ok (value, files) => (.ok value, { machine with files })
  | .error error => (.error error, machine)

/-- For how many results a queue may have places. -/
def mostPlaces : Nat := 1099511627776

/-- Starts any number of threads, if there is room for their queue. -/
def startWorkers (places : Nat) : Except WorkersError Unit :=
  if places ≤ mostPlaces then .ok () else .error .queue

/-- The answer to a request, and the machine afterwards. -/
def answer (machine : Machine) : (request : Request) → request.Answer × Machine
  | .readFile path => (machine.files.read path, machine)
  | .kind path => (machine.files.kind? path, machine)
  | .list path => (machine.files.list path, machine)
  | .walk path =>
    ((machine.files.walk path).map (·.map fun (path, kind) => (path, .ok kind)), machine)
  | .makeDirectories path =>
    let (result, files) := machine.files.makeDirectories path
    (result, { machine with files })
  | .writeFile path content =>
    machine.change ((machine.files.write path content).map fun files => ((), files))
  | .makeTemporary dir => machine.change (machine.files.makeTemporary dir)
  | .removeFile path =>
    machine.change ((machine.files.removeFile path).map fun files => ((), files))
  | .rename source destination =>
    machine.change ((machine.files.rename source destination).map fun files => ((), files))
  | .runProgram program arguments dir => machine.runProgram program arguments dir
  | .workingDirectory => (machine.files.workingPath, machine)
  | .environment => (machine.environment, machine)
  | .processors => (machine.processors, machine)
  | .checksOverflow => (true, machine)
  | .startWorkers _ places => (startWorkers places, machine)
  | .clock => ((0 : Nat), machine)
  | .print text => ((), { machine with output := machine.output ++ [text] })
  | .printError text => ((), { machine with errors := machine.errors ++ [text] })
  | .log event => ((), { machine with events := machine.events ++ [event] })

end Machine

namespace Session

def run {α : Type} : Session α → Machine → α × Machine
  | done value, machine => (value, machine)
  | ask request next, machine =>
    let (answer, machine) := machine.answer request
    (next answer).run machine

@[simp]
theorem run_pure {α : Type} (value : α) (machine : Machine) :
    (pure value : Session α).run machine = (value, machine) := rfl

@[simp]
theorem run_request (request : Request) (machine : Machine) :
    (Session.request request).run machine = machine.answer request := rfl

@[simp]
theorem run_bind {α β : Type} (session : Session α) (next : α → Session β)
    (machine : Machine) :
    (session >>= next).run machine =
      (next (session.run machine).1).run (session.run machine).2 := by
  induction session generalizing machine with
  | done value => rfl
  | ask request more ih => exact ih _ _

end Session

namespace Attempt

def runOn {ε α : Type} (attempt : Attempt ε α) (machine : Machine) :
    Except ε α × Machine :=
  Session.run attempt.run machine

end Attempt

end SymbolIndex
