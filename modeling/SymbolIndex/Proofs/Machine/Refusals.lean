import SymbolIndex.Package.Origin
import SymbolIndex.Proofs.Index.Store
import SymbolIndex.Proofs.Machine.Acceptance
import SymbolIndex.Snapshot.Golden

/-!
# Writing a file or nothing

An index, a package cache and a golden file are written by way of a temporary file.  Any
step of that may be refused: making the directories above the file, making the temporary
file, filling it, and moving it.  Whatever is refused, either the file has its new bytes
and no other file is different, or all files are as they were.
-/

namespace SymbolIndex

/-- What a refused request may have done to the files.  Directories may have been made, and
a file that was to be written may be there with other bytes. -/
def Request.MayLeave : Request → FileTree → FileTree → Prop
  | makeDirectories _, before, after | makeTemporary _, before, after =>
    after.fileAt = before.fileAt
  | writeFile path _, before, after =>
    after = before ∨ ∃ bytes, before.write path bytes = .ok after
  | _, before, after => after = before

namespace World

/-- Whether a refusal leaves no more behind than it may, and whether a file that is there
can be removed. -/
structure RefusesCleanly (world : World) : Prop where
  refused : ∀ (request : Request) (state : world.State),
    request.Refuses (world.answer request state).1 →
      request.MayLeave (world.files state) (world.files (world.answer request state).2)
  removes : ∀ (path : FilePath) (state : world.State),
    (world.answer (.removeFile path) state).1 =
      (Machine.answer { files := world.files state } (.removeFile path)).1

/-- Whether an attempt to give a file new bytes either does that and changes no other file,
or fails and changes no file at all. -/
def AllOrNothing {ε : Type} (world : World) (attempt : Attempt ε Unit) (path : FilePath)
    (content : ByteArray) : Prop :=
  ∀ state : world.State, match attempt.runIn world state with
    | (.ok (), after) =>
      (world.files after).read path = .ok content ∧
        (world.files after).fileAt =
          Function.update (world.files state).fileAt ((world.files state).placeOf path)
            (some content)
    | (.error _, after) => (world.files after).fileAt = (world.files state).fileAt

/-- A machine that refuses a change makes no part of it, up to directories. -/
theorem refusesCleanly_ofMachine : ofMachine.RefusesCleanly where
  refused request (machine : Machine) refused := by
    change request.Refuses (machine.answer request).1 at refused
    change request.MayLeave machine.files (machine.answer request).2.files
    have unchanged {α : Type} {result : Except FileError (α × FileTree)}
        (failed : ∃ error, (machine.change result).1 = .error error) :
        (machine.change result).2.files = machine.files := by
      obtain ⟨error, isError⟩ := failed
      cases result with
      | ok value => cases isError
      | error error => rfl
    cases request
    case makeDirectories path =>
      exact (FileTree.addsDirectories_makeDirectories path machine.files).fileAt_eq
    case makeTemporary dir => exact congrArg FileTree.fileAt (unchanged refused)
    case writeFile path content => exact .inl (unchanged refused)
    case removeFile | rename => exact unchanged refused
    all_goals cases refused
  removes path (machine : Machine) := by
    change (machine.change _).1 = (Machine.change _ _).1
    cases machine.files.removeFile path <;> rfl

end World

namespace Machine

/-- A change that was made came from what it was asked of the files. -/
theorem change_eq_ok {α : Type} {machine : Machine} {value : α} {files : FileTree}
    {result : Except FileError (α × FileTree)}
    (changed : machine.change result = (.ok value, { machine with files })) :
    result = .ok (value, files) := by
  cases result with
  | error error => cases changed
  | ok pair =>
      obtain ⟨sameValue, sameMachine⟩ := Prod.mk.inj changed
      obtain rfl : pair.1 = value := Except.ok.inj sameValue
      obtain rfl : pair.2 = files := congrArg Machine.files sameMachine
      rfl

end Machine

namespace Session

variable {world : World} {path temporary : FilePath} {content bytes : ByteArray}
  {tree : FileTree} {state after : world.State} {error : ReplaceError}

/-- A request that was refused has left no more behind than it may. -/
theorem mayLeave_of_refused (clean : world.RefusesCleanly) {asked : Request}
    {answer : asked.Answer} (ran : (request asked).runIn world state = (answer, after))
    (refused : asked.Refuses answer) :
    asked.MayLeave (world.files state) (world.files after) := by
  obtain ⟨rfl, rfl⟩ := Prod.mk.inj ran
  exact clean.refused asked state refused

/-- Making directories changes no file, whether it is refused or not. -/
theorem fileAt_runIn_makeDirectories (clean : world.RefusesCleanly) {dir : FilePath}
    {result : Except FileError Unit}
    (made : (makeDirectories dir).runIn world state = (result, after)) :
    (world.files after).fileAt = (world.files state).fileAt := by
  obtain rfl : (world.answer (.makeDirectories dir) state).2 = after := congrArg Prod.snd made
  obtain refused | ⟨-, files⟩ := world.changes (.makeDirectories dir) state rfl
  · exact clean.refused (.makeDirectories dir) state refused
  · rw [files]
    exact (FileTree.addsDirectories_makeDirectories dir (world.files state)).fileAt_eq

/-- A temporary file that was made is new and has no bytes. -/
theorem runIn_makeTemporary_eq_ok {dir : FilePath}
    (made : (makeTemporary dir).runIn world state = (.ok temporary, after)) :
    (world.files state).write temporary .empty = .ok (world.files after) ∧
      (world.files state).top.find? ((world.files state).placeOf temporary) = none := by
  have accepted : ¬ Request.Refuses (.makeTemporary dir) (.ok temporary) := by
    rintro ⟨_, ⟨⟩⟩
  have ran := run_request_of_accepted rfl made accepted
  exact FileTree.makeTemporary_eq_ok (Machine.change_eq_ok ran)

/-- After an attempt to fill a temporary file it is there with some bytes. -/
theorem exists_write_runIn_writeFile (clean : world.RefusesCleanly)
    (created : tree.write temporary .empty = .ok (world.files state))
    {result : Except FileError Unit}
    (filled : (writeFile temporary content).runIn world state = (result, after)) :
    ∃ bytes, tree.write temporary bytes = .ok (world.files after) := by
  obtain rfl : (world.answer (.writeFile temporary content) state).2 = after :=
    congrArg Prod.snd filled
  obtain refused | ⟨-, files⟩ := world.changes (.writeFile temporary content) state rfl
  · obtain same | ⟨bytes, part⟩ := clean.refused (.writeFile temporary content) state refused
    · exact ⟨.empty, by rw [same, created]⟩
    · obtain ⟨last, written, writtenNow⟩ := FileTree.write_write created bytes
      rw [part] at writtenNow
      exact ⟨bytes, by rw [written, writtenNow]⟩
  · obtain ⟨last, written, writtenNow⟩ := FileTree.write_write created content
    refine ⟨content, ?_⟩
    rw [written, files, Machine.answer, writtenNow]
    rfl

/-- To abandon a temporary file is to leave the files as they were before it was made. -/
theorem files_runIn_abandon (clean : world.RefusesCleanly)
    (written : tree.write temporary bytes = .ok (world.files state))
    (fresh : tree.top.find? (tree.placeOf temporary) = none) (error : ReplaceError) :
    world.files ((abandon temporary error).runIn world state).2 = tree := by
  have removed := FileTree.removeFile_write written fresh
  change world.files (world.answer (.removeFile temporary) state).2 = tree
  obtain ⟨failure, isFailure⟩ | ⟨-, files⟩ := world.changes (.removeFile temporary) state rfl
  · have answered := clean.removes temporary state
    rw [isFailure, Machine.answer, removed] at answered
    cases answered
  · rw [files, Machine.answer, removed]
    rfl

/-- A replacement that fails leaves every file as it was, whichever of its steps is
refused. -/
theorem fileAt_runIn_replaceFile_of_error (clean : world.RefusesCleanly)
    (failed : (replaceFile path content).runIn world state = (.error error, after)) :
    (world.files after).fileAt = (world.files state).fileAt := by
  obtain ⟨result, prepared, directories, failed⟩ := exists_of_runIn_bind failed
  have preparedFiles := fileAt_runIn_makeDirectories clean directories
  cases result with
  | error error =>
      cases failed
      exact preparedFiles
  | ok =>
      obtain ⟨result, created, made, failed⟩ := exists_of_runIn_bind failed
      cases result with
      | error error =>
          cases failed
          exact Eq.trans (mayLeave_of_refused clean made ⟨error, rfl⟩) preparedFiles
      | ok temporary =>
          obtain ⟨empty, fresh⟩ := runIn_makeTemporary_eq_ok made
          obtain ⟨result, filled, written, failed⟩ := exists_of_runIn_bind failed
          obtain ⟨bytes, there⟩ := exists_write_runIn_writeFile clean empty written
          cases result with
          | error error =>
              have abandoned := files_runIn_abandon clean there fresh (.prepare error)
              rw [failed] at abandoned
              rw [abandoned, preparedFiles]
          | ok =>
              obtain ⟨result, last, renamed, failed⟩ := exists_of_runIn_bind failed
              cases result with
              | ok => cases failed
              | error error =>
                  have unchanged : world.files last = world.files filled :=
                    mayLeave_of_refused clean renamed ⟨error, rfl⟩
                  rw [← unchanged] at there
                  have abandoned := files_runIn_abandon clean there fresh (.publish error)
                  rw [failed] at abandoned
                  rw [abandoned, preparedFiles]

/-- A replacement that succeeds changes the bytes of its file and no other file. -/
theorem fileAt_runIn_replaceFile
    (replaced : (replaceFile path content).runIn world state = (.ok (), after)) :
    (world.files after).fileAt =
      Function.update (world.files state).fileAt ((world.files state).placeOf path)
        (some content) := by
  have ran := mirrored_replaceFile path content world state after () replaced
  obtain ⟨files, left, -, succeeded⟩ :=
    run_replaceFile path content { files := world.files state }
  rw [ran] at left succeeded
  obtain rfl : world.files after = files := congrArg Machine.files left
  have adds := FileTree.addsDirectories_makeDirectories path.directory (world.files state)
  obtain ⟨place, name, target, noDirectory, -, written⟩ :=
    FileTree.write_eq_ok.mp (succeeded rfl)
  obtain ⟨placeOf, directory, -⟩ := FileTree.target_eq_ok target
  rw [FileTree.placeOf_congr adds.workingDirectory_eq] at placeOf
  rw [written, FileTree.fileAt_putAt_file directory noDirectory, adds.fileAt_eq, placeOf]

end Session

namespace World

variable {world : World} {ε : Type}

theorem allOrNothing_replaceFile (clean : world.RefusesCleanly) (wrap : ReplaceError → ε)
    (path : FilePath) (content : ByteArray) :
    world.AllOrNothing (Attempt.ofSession wrap (Session.replaceFile path content)) path
      content := by
  intro state
  rw [Attempt.runIn_ofSession]
  rcases replaced : (Session.replaceFile path content).runIn world state with ⟨result, after⟩
  cases result with
  | ok => exact ⟨Session.read_runIn_replaceFile replaced, Session.fileAt_runIn_replaceFile replaced⟩
  | error error => exact Session.fileAt_runIn_replaceFile_of_error clean replaced

/-- To report a success makes no difference. -/
theorem AllOrNothing.reported {attempt : Attempt ε Unit} {path : FilePath} {content : ByteArray}
    (allOrNothing : world.AllOrNothing attempt path content) (level : LogLevel)
    (target message : String) :
    world.AllOrNothing (do attempt; Session.log level target message) path content := by
  intro state
  have known := allOrNothing state
  rw [Attempt.runIn_bind]
  rcases ran : attempt.runIn world state with ⟨result, after⟩
  rw [ran] at known
  cases result with
  | error error => exact known
  | ok =>
      dsimp only at known ⊢
      have sameFiles := world.keeps (.log ⟨level, target, message⟩) after rfl
      change (world.files (world.answer (.log ⟨level, target, message⟩) after).2).read path = _ ∧
        (world.files (world.answer (.log ⟨level, target, message⟩) after).2).fileAt = _
      rw [sameFiles]
      exact known

/-- An attempt that fails at once changes no file. -/
theorem allOrNothing_throw (error : ε) (path : FilePath) (content : ByteArray) :
    world.AllOrNothing (throw error : Attempt ε Unit) path content :=
  fun _ => rfl

/-- Whatever a world refuses, saving an index, writing a package cache and writing a golden
file each give the file its new bytes and change no other file, or change no file. -/
theorem allOrNothing_of_refusesCleanly (clean : world.RefusesCleanly) :
    (∀ path index, world.AllOrNothing (Index.save path index) path index.toBytes) ∧
      (∀ path packages, world.AllOrNothing (PackageCache.write path packages) path
        (PackageCache.print packages).toUTF8) ∧
      ∀ path snapshot, world.AllOrNothing (Golden.write path snapshot) path snapshot.toUTF8 := by
  refine ⟨fun path index => ?_, fun path packages => ?_, fun path snapshot => ?_⟩
  · rw [Index.save]
    dsimp only
    split
    · exact allOrNothing_throw _ _ _
    · exact (allOrNothing_replaceFile clean _ path _).reported _ _ _
  · exact (allOrNothing_replaceFile clean _ path _).reported _ _ _
  · exact allOrNothing_replaceFile clean _ path _

/-- A machine whose disk is full: of a file that is to be written only the first byte is. -/
@[reducible]
def fullDisk : World where
  State := Machine
  files := Machine.files
  answer
    | .writeFile path content, machine =>
      (.error (.other "No space left on device (os error 28)"),
        (machine.answer (.writeFile path (content.extract 0 1))).2)
    | request, machine => machine.answer request
  keeps request machine reads := by
    cases request
    case writeFile => cases reads
    all_goals exact ofMachine.keeps _ machine reads
  changes request machine changing := by
    cases request
    case writeFile => exact .inl ⟨_, rfl⟩
    all_goals exact ofMachine.changes _ machine changing

theorem refusesCleanly_fullDisk : fullDisk.RefusesCleanly where
  refused request (machine : Machine) refused := by
    cases request
    case writeFile path content =>
      change Request.MayLeave (.writeFile path content) machine.files
        (machine.change ((machine.files.write path _).map fun files => ((), files))).2.files
      cases written : machine.files.write path (content.extract 0 1) with
      | error error => exact .inl rfl
      | ok files => exact .inr ⟨_, written⟩
    all_goals exact refusesCleanly_ofMachine.refused _ machine refused
  removes path machine := refusesCleanly_ofMachine.removes path machine

/-- On a machine an index takes the place of another file.  On a full disk it does not, and
no temporary file stays. -/
theorem allOrNothing_of_refusesCleanly_fullDisk :
    let path : FilePath := ⟨"out/index.scip"⟩
    let machine := Index.occupiedMachine
    let index := Index.documentedIndex
    ofMachine.RefusesCleanly ∧ fullDisk.RefusesCleanly ∧
      (∃ after, (Index.save path index).runIn ofMachine machine = (.ok (), after) ∧
        after.files.read path = .ok index.toBytes ∧
        after.files.fileAt = Function.update machine.files.fileAt ["out", "index.scip"]
          (some index.toBytes)) ∧
      ∃ error after, (Index.save path index).runIn fullDisk machine = (.error error, after) ∧
        after.files.fileAt = machine.files.fileAt := by
  intro path machine index
  refine ⟨refusesCleanly_ofMachine, refusesCleanly_fullDisk, ?_, ?_⟩
  · have succeeds : ((Index.save path index).runIn ofMachine machine).1 = .ok () := by
      decide +kernel
    have known := (allOrNothing_of_refusesCleanly refusesCleanly_ofMachine).1 path index machine
    have place : machine.files.placeOf path = ["out", "index.scip"] := by
      decide +kernel
    rw [Attempt.runIn_eq_mk succeeds] at known
    dsimp only at known
    rw [place] at known
    exact ⟨_, Attempt.runIn_eq_mk succeeds, known⟩
  · have fails : ((Index.save path index).runIn fullDisk machine).1 =
        .error (.io path (.other "No space left on device (os error 28)")) := by
      decide +kernel
    have known := (allOrNothing_of_refusesCleanly refusesCleanly_fullDisk).1 path index machine
    rw [Attempt.runIn_eq_mk fails] at known
    exact ⟨_, _, Attempt.runIn_eq_mk fails, known⟩

end World

end SymbolIndex
