import SymbolIndex.Proofs.Machine.Replacing
import SymbolIndex.Proofs.Machine.Worlds

/-!
# Replacing a file in a world

A replacement that a world accepts step by step is the one that is made on a machine with
the same files, so afterwards the file holds its new bytes.
-/

namespace SymbolIndex

/-- Whether a world accepts all that is asked of it when a file is given new bytes: that the
directories above it and a file beside it are made, that the bytes go there, and that this
file takes the place of the other. -/
inductive World.Replaces (world : World) (path : FilePath) (content : ByteArray)
    (state after : world.State) : Prop where
  | intro {made begun written : world.State} {temporary : FilePath}
    (directories : (Session.makeDirectories path.directory).runIn world state = (.ok (), made))
    (begin : (Session.makeTemporary path.directory).runIn world made = (.ok temporary, begun))
    (write : (Session.writeFile temporary content).runIn world begun = (.ok (), written))
    (rename : (Session.rename temporary path).runIn world written = (.ok (), after))

variable {δ ε α β : Type} {world : World}

namespace Session

/-- A change that a world does not refuse is made on a machine with the same files. -/
theorem run_request_of_accepted {request : Request} {answer : request.Answer}
    {state after : world.State} (changing : request.reads = false)
    (made : (Session.request request).runIn world state = (answer, after))
    (accepted : ¬ request.Refuses answer) :
    (Session.request request).run { files := world.files state } =
      (answer, { files := world.files after }) := by
  change world.answer request state = (answer, after) at made
  rw [run_request]
  obtain refused | ⟨sameAnswer, sameFiles⟩ := world.changes request state changing
  · rw [made] at refused
    exact absurd refused accepted
  · rw [made] at sameAnswer sameFiles
    refine Prod.ext sameAnswer.symm ?_
    rw [Machine.answer_bare _ changing, ← sameFiles]

/-- Whether a session that succeeds in a world does the same on a machine with the same
files. -/
def Mirrored (session : Session (Except ε α)) : Prop :=
  ∀ (world : World) (state after : world.State) (value : α),
    session.runIn world state = (.ok value, after) →
      session.run { files := world.files state } = (.ok value, { files := world.files after })

theorem mirrored_bind {first : Session (Except δ α)} {next : Except δ α → Session (Except ε β)}
    (mirrored : first.Mirrored)
    (fails : ∀ error (world : World) (state : world.State) value,
      ((next (.error error)).runIn world state).1 ≠ .ok value)
    (onwards : ∀ value, (next (.ok value)).Mirrored) : (first >>= next).Mirrored := by
  intro world state after value ran
  obtain ⟨result, middle, started, ran⟩ := exists_of_runIn_bind ran
  cases result with
  | error error => exact absurd (congrArg Prod.fst ran) (fails error world middle value)
  | ok between =>
      rw [run_bind, mirrored world state middle between started]
      exact onwards between world middle after value ran

theorem mirrored_replaceFile (path : FilePath) (content : ByteArray) :
    (replaceFile path content).Mirrored := by
  have made : (makeDirectories path.directory).Mirrored := fun _ _ _ _ ran =>
    run_request_of_accepted rfl ran (by rintro ⟨_, ⟨⟩⟩)
  have begun : (makeTemporary path.directory).Mirrored := fun _ _ _ _ ran =>
    run_request_of_accepted rfl ran (by rintro ⟨_, ⟨⟩⟩)
  refine mirrored_bind made (fun _ _ _ _ => nofun) fun _ => ?_
  refine mirrored_bind begun (fun _ _ _ _ => nofun) fun temporary => ?_
  have written : (writeFile temporary content).Mirrored := fun _ _ _ _ ran =>
    run_request_of_accepted rfl ran (by rintro ⟨_, ⟨⟩⟩)
  have renamed : (rename temporary path).Mirrored := fun _ _ _ _ ran =>
    run_request_of_accepted rfl ran (by rintro ⟨_, ⟨⟩⟩)
  refine mirrored_bind written (fun _ _ _ _ => nofun) fun _ => ?_
  refine mirrored_bind renamed (fun _ _ _ _ => nofun) fun _ => ?_
  rintro world state _ _ ⟨⟩
  rfl

/-- A file is replaced when all requests for that are accepted. -/
theorem runIn_replaceFile_eq_ok {path : FilePath} {content : ByteArray}
    {state after : world.State} :
    (replaceFile path content).runIn world state = (.ok (), after) ↔
      world.Replaces path content state after := by
  constructor
  · intro replaced
    obtain ⟨made, first, directories, replaced⟩ := exists_of_runIn_bind replaced
    obtain error | _ := made
    · cases replaced
    obtain ⟨begun, second, begin, replaced⟩ := exists_of_runIn_bind replaced
    obtain error | temporary := begun
    · cases replaced
    obtain ⟨written, third, write, replaced⟩ := exists_of_runIn_bind replaced
    obtain error | _ := written
    · cases replaced
    obtain ⟨renamed, last, rename, replaced⟩ := exists_of_runIn_bind replaced
    obtain error | _ := renamed
    · cases replaced
    cases replaced
    exact .intro directories begin write rename
  · rintro ⟨directories, begin, write, rename⟩
    simp only [replaceFile, runIn_bind, directories, begin, write, rename]
    rfl

/-- A file that was replaced holds its new bytes. -/
theorem read_runIn_replaceFile {path : FilePath} {content : ByteArray} {state after : world.State}
    (replaced : (replaceFile path content).runIn world state = (.ok (), after)) :
    (world.files after).read path = .ok content := by
  have ran := mirrored_replaceFile path content world state after () replaced
  have read := read_run_replaceFile (congrArg Prod.fst ran)
  rwa [ran] at read

end Session

end SymbolIndex
