import SymbolIndex.Proofs.Machine.Worlds
import SymbolIndex.Text.Lossy

/-!
# Runs of requests and attempts

What a machine answers to each request on files, and how runs of attempts go on after a
success and end with a failure.  A machine is a world, so the latter is what is true in
every world.
-/

namespace SymbolIndex

namespace FileTree

/-- The text in a file. -/
def readText (tree : FileTree) (path : FilePath) : Except FileError String :=
  match tree.read path with
  | .error error => .error error
  | .ok bytes =>
    match String.fromUTF8? bytes with
    | some text => .ok text
    | none => .error .notText

theorem readText_of_read {tree : FileTree} {path : FilePath} {text : String}
    (read : tree.read path = .ok text.toUTF8) : tree.readText path = .ok text := by
  have decoded : String.fromUTF8? text.toUTF8 = some text := Text.decode?_toUTF8 text
  simp only [readText, read, decoded]

end FileTree

namespace Session

variable (machine : Machine)

@[simp]
theorem run_readFile (path : FilePath) :
    (readFile path).run machine = (machine.files.read path, machine) := rfl

@[simp]
theorem run_readText (path : FilePath) :
    (readText path).run machine = (machine.files.readText path, machine) := by
  rw [readText, run_bind, run_readFile, FileTree.readText]
  cases machine.files.read path with
  | error error => rfl
  | ok bytes =>
      dsimp only
      cases String.fromUTF8? bytes <;> rfl

@[simp]
theorem run_pathExists (path : FilePath) :
    (pathExists path).run machine = ((machine.files.kind? path).isSome, machine) := rfl

@[simp]
theorem run_kind (path : FilePath) :
    (kind path).run machine = (machine.files.kind? path, machine) := rfl

@[simp]
theorem run_list (path : FilePath) :
    (list path).run machine = (machine.files.list path, machine) := rfl

@[simp]
theorem run_walk (path : FilePath) :
    (walk path).run machine =
      ((machine.files.walk path).map (·.map fun (path, kind) => (path, .ok kind)), machine) := rfl

@[simp]
theorem run_workingDirectory :
    workingDirectory.run machine = (machine.files.workingPath, machine) := rfl

@[simp]
theorem run_runProgram (program : String) (arguments : List String) (dir : Option FilePath) :
    (runProgram program arguments dir).run machine = machine.runProgram program arguments dir := rfl

@[simp]
theorem run_makeDirectories (path : FilePath) :
    (makeDirectories path).run machine =
      ((machine.files.makeDirectories path).1,
        { machine with files := (machine.files.makeDirectories path).2 }) := rfl

@[simp]
theorem run_makeTemporary (dir : FilePath) :
    (makeTemporary dir).run machine = machine.change (machine.files.makeTemporary dir) := rfl

@[simp]
theorem run_writeFile (path : FilePath) (content : ByteArray) :
    (writeFile path content).run machine =
      machine.change ((machine.files.write path content).map fun files => ((), files)) := rfl

@[simp]
theorem run_removeFile (path : FilePath) :
    (removeFile path).run machine =
      machine.change ((machine.files.removeFile path).map fun files => ((), files)) := rfl

@[simp]
theorem run_rename (source destination : FilePath) :
    (rename source destination).run machine =
      machine.change ((machine.files.rename source destination).map fun files => ((), files)) :=
  rfl

@[simp]
theorem run_log (level : LogLevel) (target message : String) :
    (log level target message).run machine =
      ((), { machine with events := machine.events ++ [⟨level, target, message⟩] }) := rfl

end Session

namespace Attempt

variable {δ ε α β : Type} {machine : Machine}

@[simp]
theorem runOn_pure (value : α) (machine : Machine) :
    (pure value : Attempt ε α).runOn machine = (.ok value, machine) := rfl

@[simp]
theorem runOn_throw (error : ε) (machine : Machine) :
    (throw error : Attempt ε α).runOn machine = (.error error, machine) := rfl

/-- In the world of a machine an attempt comes to what it comes to on the machine. -/
theorem runIn_ofMachine (attempt : Attempt ε α) (machine : Machine) :
    attempt.runIn .ofMachine machine = attempt.runOn machine :=
  Session.runIn_ofMachine attempt.run machine

theorem runOn_bind (attempt : Attempt ε α) (next : α → Attempt ε β) (machine : Machine) :
    (attempt >>= next).runOn machine =
      match attempt.runOn machine with
      | (.ok value, after) => (next value).runOn after
      | (.error error, after) => (.error error, after) := by
  have ran := @runIn_bind _ _ _ .ofMachine attempt next machine
  simp only [runIn_ofMachine] at ran
  rw [ran]
  rcases attempt.runOn machine with ⟨result, after⟩
  cases result <;> rfl

/-- An attempt that goes on succeeds when both parts do. -/
theorem runOn_bind_eq_ok {attempt : Attempt ε α} {next : α → Attempt ε β} {value : β}
    {after : Machine} :
    (attempt >>= next).runOn machine = (.ok value, after) ↔
      ∃ first middle, attempt.runOn machine = (.ok first, middle) ∧
        (next first).runOn middle = (.ok value, after) := by
  simp only [← runIn_ofMachine]
  exact runIn_bind_eq_ok

@[simp]
theorem runOn_lift (session : Session α) (machine : Machine) :
    (liftM session : Attempt ε α).runOn machine =
      (.ok (session.run machine).1, (session.run machine).2) := by
  rw [← runIn_ofMachine, runIn_lift, Session.runIn_ofMachine]

@[simp]
theorem runOn_ofSession (wrap : δ → ε) (session : Session (Except δ α)) (machine : Machine) :
    (ofSession wrap session).runOn machine =
      ((session.run machine).1.mapError wrap, (session.run machine).2) := by
  rw [← runIn_ofMachine, runIn_ofSession, Session.runIn_ofMachine]

theorem runOn_ofSession_eq_ok {wrap : δ → ε} {session : Session (Except δ α)} {value : α}
    {after : Machine} :
    (ofSession wrap session).runOn machine = (.ok value, after) ↔
      session.run machine = (.ok value, after) := by
  rw [← runIn_ofMachine, runIn_ofSession_eq_ok, Session.runIn_ofMachine]

@[simp]
theorem runOn_mapError (wrap : δ → ε) (attempt : Attempt δ α) (machine : Machine) :
    (mapError wrap attempt).runOn machine =
      ((attempt.runOn machine).1.mapError wrap, (attempt.runOn machine).2) :=
  runOn_ofSession wrap attempt.run machine

theorem runOn_mapError_eq_ok {wrap : δ → ε} {attempt : Attempt δ α} {value : α}
    {after : Machine} :
    (mapError wrap attempt).runOn machine = (.ok value, after) ↔
      attempt.runOn machine = (.ok value, after) :=
  runOn_ofSession_eq_ok

/-- Whether an attempt on a machine with files of some kind leaves files of this
kind, whatever it comes to. -/
def Keeps (kind : FileTree → Prop) (attempt : Attempt ε α) : Prop :=
  ∀ machine : Machine, kind machine.files → kind (attempt.runOn machine).2.files

section Keeps

variable {kind : FileTree → Prop}

theorem Keeps.of_run {attempt : Attempt ε α} (keeps : Keeps kind attempt) {result : Except ε α}
    {after : Machine} (ran : attempt.runOn machine = (result, after))
    (known : kind machine.files) : kind after.files := by
  have kept := keeps machine known
  rwa [ran] at kept

theorem keeps_of_files_eq {attempt : Attempt ε α}
    (same : ∀ machine, (attempt.runOn machine).2.files = machine.files) :
    Keeps kind attempt := by
  intro machine known
  rwa [same]

theorem keeps_pure (value : α) : Keeps kind (pure value : Attempt ε α) :=
  keeps_of_files_eq fun _ => rfl

theorem keeps_log (level : LogLevel) (target message : String) :
    Keeps kind (liftM (Session.log level target message) : Attempt ε Unit) :=
  keeps_of_files_eq fun _ => rfl

/-- An attempt that goes on keeps what both parts keep. -/
theorem keeps_bind {attempt : Attempt ε α} {next : α → Attempt ε β} (first : Keeps kind attempt)
    (onwards : ∀ machine value after, kind machine.files →
      attempt.runOn machine = (.ok value, after) → Keeps kind (next value)) :
    Keeps kind (attempt >>= next) := by
  intro machine known
  have knownAfter := first machine known
  rw [runOn_bind]
  cases ran : attempt.runOn machine with
  | mk result after =>
      rw [ran] at knownAfter
      cases result with
      | ok value => exact onwards machine value after known ran after knownAfter
      | error error => exact knownAfter

theorem keeps_mapError {attempt : Attempt δ α} (wrap : δ → ε) (keeps : Keeps kind attempt) :
    Keeps kind (mapError wrap attempt) := by
  intro machine known
  rw [runOn_mapError]
  exact keeps machine known

end Keeps

end Attempt

end SymbolIndex
