import SymbolIndex.Proofs.Index.Store
import SymbolIndex.Proofs.ReadOnly

/-!
# Publishing an index

An index is saved, and then the snapshots of its documents are written one after the other.
Each of them takes the place of a file, and where one cannot the command ends.
-/

namespace SymbolIndex

namespace CommandLine

variable {world : World}

/-- Whether the snapshots of all documents below a root are written, one after the other: the
source of each document is read, and its snapshot takes the place of the file. -/
inductive AllWritten (world : World) (root dir : FilePath) : List Document → world.State → Prop where
  | nil {state} : AllWritten world root dir [] state
  | outside {document rest state} (isOutside : document.isOutside = true)
    (others : AllWritten world root dir rest state) :
    AllWritten world root dir (document :: rest) state
  | written {document rest state bytes source middle after} (isInside : document.isOutside = false)
    (read : (Session.readFile (root.child document.relativePath)).runIn world state =
      (.ok bytes, middle))
    (isText : String.fromUTF8? bytes = some source)
    (replaces : world.Replaces (dir.child document.relativePath)
      (Snapshot.render source document).toUTF8 middle after)
    (holds : (world.files after).read (dir.child document.relativePath) =
      .ok (Snapshot.render source document).toUTF8)
    (others : AllWritten world root dir rest after) :
    AllWritten world root dir (document :: rest) state

theorem runIn_readText_eq_ok {path : FilePath} {source : String} {state middle : world.State} :
    (Session.readText path).runIn world state = (.ok source, middle) ↔
      ∃ bytes, (Session.readFile path).runIn world state = (.ok bytes, middle) ∧
        String.fromUTF8? bytes = some source := by
  rw [Session.readText, Session.runIn_bind]
  rcases (Session.readFile path).runIn world state with ⟨error | bytes, after⟩
  · constructor
    · intro read
      cases read
    · rintro ⟨_, ⟨⟩, -⟩
  · dsimp only
    cases decoded : String.fromUTF8? bytes with
    | none =>
        constructor
        · intro read
          cases read
        · rintro ⟨_, ⟨⟩, isText⟩
          cases decoded.symm.trans isText
    | some text =>
        constructor
        · rintro ⟨⟩
          exact ⟨bytes, rfl, decoded⟩
        · rintro ⟨_, ⟨⟩, isText⟩
          cases decoded.symm.trans isText
          rfl

theorem runIn_write_eq_ok {path : FilePath} {snapshot : String} {state after : world.State} :
    (Golden.write path snapshot).runIn world state = (.ok (), after) ↔
      world.Replaces path snapshot.toUTF8 state after :=
  Attempt.runIn_ofSession_eq_ok.trans Session.runIn_replaceFile_eq_ok

theorem exists_writeRenderings_eq_ok (root dir : FilePath) (documents : List Document)
    (state : world.State) :
    (∃ count after, (writeRenderings root dir documents).runIn world state =
      (.ok count, after)) ↔ AllWritten world root dir documents state := by
  induction documents generalizing state with
  | nil => exact ⟨fun _ => .nil, fun _ => ⟨0, state, rfl⟩⟩
  | cons document rest ih =>
      rw [writeRenderings]
      constructor
      · rintro ⟨count, last, ran⟩
        split at ran
        case isTrue isOutside => exact .outside isOutside ((ih _).mp ⟨count, last, ran⟩)
        case isFalse isInside =>
          obtain ⟨source, middle, read, ran⟩ := Attempt.runIn_bind_eq_ok.mp ran
          obtain ⟨_, after, write, ran⟩ := Attempt.runIn_bind_eq_ok.mp ran
          obtain ⟨count, _, others, -⟩ := Attempt.runIn_bind_eq_ok.mp ran
          obtain ⟨bytes, read, isText⟩ :=
            runIn_readText_eq_ok.mp (Attempt.runIn_ofSession_eq_ok.mp read)
          have replaces := runIn_write_eq_ok.mp (Attempt.runIn_mapError_eq_ok.mp write)
          have holds := Session.read_runIn_replaceFile
            (Session.runIn_replaceFile_eq_ok.mpr replaces)
          exact .written (by simpa using isInside) read isText replaces holds
            ((ih _).mp ⟨count, _, others⟩)
      · intro all
        cases all with
        | outside isOutside others =>
            rw [if_pos isOutside]
            exact (ih _).mpr others
        | written isInside read isText replaces _ others =>
            rw [if_neg (by simp [isInside])]
            obtain ⟨count, last, ran⟩ := (ih _).mpr others
            have text := runIn_readText_eq_ok.mpr ⟨_, read, isText⟩
            have write := runIn_write_eq_ok.mpr replaces
            exact ⟨count + 1, last, Attempt.runIn_bind_eq_ok.mpr
              ⟨_, _, Attempt.runIn_ofSession_eq_ok.mpr text, Attempt.runIn_bind_eq_ok.mpr
                ⟨_, _, Attempt.runIn_mapError_eq_ok.mpr write, Attempt.runIn_bind_eq_ok.mpr
                  ⟨_, _, ran, rfl⟩⟩⟩⟩

/-- Snapshots that are asked for are published when they are all written. -/
theorem runIn_publishSnapshots (given : IndexArguments) (root : FilePath)
    (documents : List Document) (state : world.State) :
    let ended := (publishSnapshots given root documents).runIn world state
    (ended.1 = .ok () ↔ ∀ dir, given.snapshotDirectory = some dir →
      AllWritten world root dir documents state) ∧
    world.files ended.2 = match given.snapshotDirectory with
      | none => world.files state
      | some dir => world.files ((writeRenderings root dir documents).runIn world state).2 := by
  intro ended
  simp only [ended, publishSnapshots]
  cases given.snapshotDirectory with
  | none => exact ⟨⟨fun _ _ => nofun, fun _ => rfl⟩, rfl⟩
  | some dir =>
      have allWritten := exists_writeRenderings_eq_ok root dir documents state
      dsimp only
      rw [Attempt.runIn_bind]
      rcases ran : (writeRenderings root dir documents).runIn world state with
        ⟨error | count, after⟩
      · rw [ran] at allWritten
        have notAll : ¬ AllWritten world root dir documents state := fun all => by
          obtain ⟨_, _, ⟨⟩⟩ := allWritten.mpr all
        exact ⟨⟨nofun, fun all => absurd (all dir rfl) notAll⟩, rfl⟩
      · have all := allWritten.mp ⟨count, after, ran⟩
        refine ⟨⟨fun _ => ?_, fun _ => rfl⟩, world.keeps _ after rfl⟩
        rintro _ ⟨⟩
        exact all

/-- Whether an index can be written: it is not too large, and its bytes take the place of the
file. -/
def CanSave (world : World) (output : FilePath) (index : Index) (state : world.State) : Prop :=
  index.toBytes.size ≤ Index.maxSize ∧
    ∃ replaced, world.Replaces output index.toBytes state replaced

/-- What publishing an index comes to, told by an exit code and the files in the end.  It
fails where the index cannot be written.  Otherwise the index is what the file holds then and
what is loaded from it, and the exit code is zero exactly when no file has failed and all
snapshots that are asked for are written. -/
inductive Published (world : World) (settings : Settings) (given : IndexArguments) (total : Nat)
    (report : AssemblyReport) (elapsed : Nat) (made : world.State) (exitCode : Nat)
    (last : FileTree) : Prop where
  | unsaved (cannot : ¬ CanSave world (given.outputPath settings) report.index made)
    (fails : exitCode ≠ 0)
  | saved {saved told : world.State}
    (canSave : CanSave world (given.outputPath settings) report.index made)
    (save : (report.index.save (given.outputPath settings)).runIn world made = (.ok (), saved))
    (holds : (world.files saved).read (given.outputPath settings) = .ok report.index.toBytes)
    (loads : Index.ofBytes? report.index.toBytes = some report.index)
    (tell : (Session.printLine (indexSummary report total (given.outputPath settings)
      elapsed)).runIn world saved = ((), told))
    (succeeds : exitCode = 0 ↔ report.failures = [] ∧
      ∀ dir, given.snapshotDirectory = some dir →
        AllWritten world (given.root settings) dir report.index.documents told)
    (files : last = match given.snapshotDirectory with
      | none => world.files told
      | some dir => world.files
        ((writeRenderings (given.root settings) dir report.index.documents).runIn world told).2)

/-- An exit code that is zero exactly when publishing an index finds no problem tells what it
comes to. -/
theorem published_of_publishIndex (settings : Settings) (given : IndexArguments) (total : Nat)
    (report : AssemblyReport) (elapsed : Nat) (made : world.State) {exitCode : Nat}
    (tells : exitCode = 0 ↔
      ((publishIndex settings given total report elapsed).runIn world made).1 = .ok true) :
    Published world settings given total report elapsed made exitCode
      (world.files ((publishIndex settings given total report elapsed).runIn world made).2) := by
  have canSave := @Index.runIn_save_eq_ok world (given.outputPath settings) report.index made
  rw [publishIndex, Attempt.runIn_mapError_bind] at tells ⊢
  rcases save : (report.index.save (given.outputPath settings)).runIn world made with
    ⟨error | _, saved⟩
  · rw [save] at canSave tells
    exact .unsaved (fun can => nomatch canSave.mpr can) fun zero => nomatch tells.mp zero
  · rw [save] at canSave tells
    dsimp only at tells ⊢
    rw [Attempt.runIn_lift_bind] at tells ⊢
    rcases tell : (Session.printLine (indexSummary report total (given.outputPath settings)
      elapsed)).runIn world saved with ⟨_, told⟩
    rw [tell] at tells
    dsimp only at tells ⊢
    rw [Attempt.runIn_bind] at tells ⊢
    obtain ⟨allWritten, kept⟩ :=
      runIn_publishSnapshots given (given.root settings) report.index.documents told
    have clean : report.isClean = true ↔ report.failures = [] := List.isEmpty_iff
    refine .saved (canSave.mp rfl) save (Index.read_of_save save)
      (Index.ofBytes?_toBytes (canSave.mp rfl).1) tell ?_ ?_
    · rw [tells, ← allWritten, ← clean]
      generalize (publishSnapshots given (given.root settings)
        report.index.documents).runIn world told = published
      obtain ⟨error | _, after⟩ := published
      · exact ⟨nofun, fun ⟨_, written⟩ => nomatch written⟩
      · exact ⟨fun succeeds => ⟨Except.ok.inj succeeds, rfl⟩,
          fun ⟨isClean, _⟩ => congrArg Except.ok isClean⟩
    · rw [← kept]
      generalize (publishSnapshots given (given.root settings)
        report.index.documents).runIn world told = published
      obtain ⟨error | _, after⟩ := published <;> rfl

end CommandLine

end SymbolIndex
