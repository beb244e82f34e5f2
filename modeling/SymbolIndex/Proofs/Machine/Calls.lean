import SymbolIndex.Proofs.Machine.Worlds

/-!
# Calls of programs

The programs that a session calls in a world, one after the other, and what they answer.
An attempt that goes on makes the calls of its first part, and then those of the second
if the first has succeeded.
-/

namespace SymbolIndex

/-- A run of a program with its answer, which is missing if it could not be started. -/
structure ProgramCall extends ProgramRun where
  answer : Option ProgramOutput

/-- What a call of a program comes to in a world. -/
def World.call (world : World) (program : String) (arguments : List String)
    (state : world.State) : ProgramCall :=
  ⟨⟨program, arguments⟩, (world.answer (.runProgram program arguments none) state).1⟩

/-- A world in which programs answer the same arguments always in the same way. -/
@[reducible]
def World.withPrograms (world : World)
    (answer : String → List String → Option ProgramOutput) : World where
  State := world.State
  files := world.files
  answer
    | .runProgram program arguments _, state => (answer program arguments, state)
    | request, state => world.answer request state
  keeps request state reads := by
    cases request
    case runProgram => rfl
    all_goals exact world.keeps _ state reads
  changes request state changing := by
    cases request
    case runProgram => cases changing
    all_goals exact world.changes _ state changing

variable {ε α β : Type} {world : World}

namespace Session

/-- The calls of programs that a session makes in a world. -/
def calls (world : World) : Session α → world.State → List ProgramCall
  | done _, _ => []
  | ask (.runProgram program arguments dir) next, state =>
    let (answer, after) := world.answer (.runProgram program arguments dir) state
    ⟨⟨program, arguments⟩, answer⟩ :: (next answer).calls world after
  | ask request next, state =>
    (next (world.answer request state).1).calls world (world.answer request state).2

theorem calls_bind (session : Session α) (next : α → Session β) (state : world.State) :
    (session >>= next).calls world state =
      session.calls world state ++
        (next (session.runIn world state).1).calls world (session.runIn world state).2 := by
  induction session generalizing state with
  | done value => rfl
  | ask request more ih =>
      cases request
      case runProgram => exact congrArg (List.cons _) (ih _ _)
      all_goals exact ih _ _

end Session

namespace Attempt

/-- The calls of programs that an attempt makes in a world. -/
def calls (world : World) (attempt : Attempt ε α) (state : world.State) : List ProgramCall :=
  Session.calls world attempt.run state

theorem calls_bind (attempt : Attempt ε α) (next : α → Attempt ε β) (state : world.State) :
    (attempt >>= next).calls world state = attempt.calls world state ++
      match attempt.runIn world state with
      | (.ok value, after) => (next value).calls world after
      | (.error _, _) => [] := by
  have unfolded : (attempt >>= next).calls world state = attempt.calls world state ++
      (ExceptT.bindCont next (attempt.runIn world state).1).calls world
        (attempt.runIn world state).2 :=
    Session.calls_bind attempt.run (ExceptT.bindCont next) state
  rw [unfolded]
  rcases attempt.runIn world state with ⟨result, after⟩
  cases result <;> rfl

/-- An attempt that only changes a value at its end makes the same calls. -/
theorem calls_bind_pure (attempt : Attempt ε α) (after : α → β) (state : world.State) :
    (attempt >>= fun value => pure (after value)).calls world state =
      attempt.calls world state := by
  rw [calls_bind]
  rcases attempt.runIn world state with ⟨result, last⟩
  cases result <;> exact List.append_nil _

theorem runIn_bind_pure (attempt : Attempt ε α) (after : α → β) (state : world.State) :
    (attempt >>= fun value => pure (after value)).runIn world state =
      ((attempt.runIn world state).1.map after, (attempt.runIn world state).2) := by
  rw [runIn_bind]
  rcases attempt.runIn world state with ⟨result, last⟩
  cases result <;> rfl

theorem calls_lift (session : Session α) (state : world.State) :
    (liftM session : Attempt ε α).calls world state = session.calls world state :=
  (Session.calls_bind session (fun value => pure (Except.ok value : Except ε α)) state).trans
    (List.append_nil _)

end Attempt

end SymbolIndex
