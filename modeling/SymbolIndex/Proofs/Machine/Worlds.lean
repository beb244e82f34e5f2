import SymbolIndex.Machine.Basic
import SymbolIndex.Proofs.Fallible
import SymbolIndex.Proofs.Machine.Requests

/-!
# Worlds

A world answers requests as it likes: it may refuse to show a file or to change one, and
the programs in it tell anything.  All that is known of it is that requests that only read
leave the files as they are, which includes the start of a program, and that a change it
does not refuse is made.  A machine is such a world, so whatever is told of sessions in all
worlds is true on machines.
-/

namespace SymbolIndex

/-- Whether an answer refuses a change to the files. -/
def Request.Refuses : (request : Request) → request.Answer → Prop
  | makeDirectories _, (answer : Except FileError Unit) => ∃ error, answer = .error error
  | writeFile _ _, (answer : Except FileError Unit) => ∃ error, answer = .error error
  | makeTemporary _, (answer : Except FileError FilePath) => ∃ error, answer = .error error
  | removeFile _, (answer : Except FileError Unit) => ∃ error, answer = .error error
  | rename _ _, (answer : Except FileError Unit) => ∃ error, answer = .error error
  | _, _ => False

namespace Machine

theorem files_runProgram (machine : Machine) (program : String) (arguments : List String)
    (dir : Option FilePath) :
    (machine.runProgram program arguments dir).2.files = machine.files := by
  unfold runProgram
  dsimp only
  split
  · rfl
  · generalize (_ && arguments.all canBeArgument) = starts
    cases starts <;> rfl

theorem files_answer_of_reads (machine : Machine) {request : Request}
    (reads : request.reads = true) : (machine.answer request).2.files = machine.files := by
  cases request
  case runProgram => exact files_runProgram ..
  all_goals first | rfl | cases reads

/-- A machine that is known by its files alone stays so when a file is changed. -/
theorem answer_bare (tree : FileTree) {request : Request}
    (changing : request.reads = false) :
    (Machine.answer { files := tree } request).2 =
      { files := (Machine.answer { files := tree } request).2.files } := by
  have changed {α : Type} (result : Except FileError (α × FileTree)) :
      (Machine.change { files := tree } result).2 =
        { files := (Machine.change { files := tree } result).2.files } := by
    cases result <;> rfl
  cases request
  case makeDirectories => rfl
  case writeFile | makeTemporary | removeFile | rename => exact changed _
  all_goals cases changing

end Machine

/-- Something that answers requests and has files. -/
structure World where
  State : Type
  files : State → FileTree
  answer : (request : Request) → State → request.Answer × State
  keeps : ∀ request state, request.reads = true → files (answer request state).2 = files state
  /-- A change that is not refused is made as on a machine with these files. -/
  changes : ∀ request state, request.reads = false →
    request.Refuses (answer request state).1 ∨
      ((answer request state).1 = (Machine.answer { files := files state } request).1 ∧
        files (answer request state).2 = (Machine.answer { files := files state } request).2.files)

namespace World

/-- The world of a machine. -/
@[reducible]
def ofMachine : World where
  State := Machine
  files := Machine.files
  answer request machine := machine.answer request
  keeps _ machine reads := machine.files_answer_of_reads reads
  changes request machine changing := by
    have changed {α : Type} (result : Except FileError (α × FileTree)) :
        (machine.change result).1 = (Machine.change { files := machine.files } result).1 ∧
          (machine.change result).2.files =
            (Machine.change { files := machine.files } result).2.files := by
      cases result <;> exact ⟨rfl, rfl⟩
    refine .inr ?_
    cases request
    case makeDirectories => exact ⟨rfl, rfl⟩
    case writeFile | makeTemporary | removeFile | rename => exact changed _
    all_goals cases changing

/-- A world with only those events reported that a filter shows. -/
@[reducible]
def filtered (world : World) (filter : LogFilter) : World where
  State := world.State
  files := world.files
  answer
    | .log event, state =>
      if filter.shows event then world.answer (.log event) state else ((), state)
    | request, state => world.answer request state
  keeps request state reads := by
    cases request
    case log event =>
      dsimp only
      split
      · exact world.keeps _ state reads
      · rfl
    all_goals exact world.keeps _ state reads
  changes request state changing := by
    cases request
    case log => cases changing
    all_goals exact world.changes _ state changing

end World

variable {δ ε α β : Type} {world : World}

namespace Session

/-- What a session comes to in a world. -/
def runIn (world : World) : Session α → world.State → α × world.State
  | done value, state => (value, state)
  | ask request next, state =>
    (next (world.answer request state).1).runIn world (world.answer request state).2

theorem runIn_eq_mk {session : Session α} {value : α} {state : world.State}
    (ran : (session.runIn world state).1 = value) :
    session.runIn world state = (value, (session.runIn world state).2) := by
  rw [← ran]

theorem runIn_bind (session : Session α) (next : α → Session β) (state : world.State) :
    (session >>= next).runIn world state =
      (next (session.runIn world state).1).runIn world (session.runIn world state).2 := by
  induction session generalizing state with
  | done value => rfl
  | ask request more ih => exact ih _ _

/-- A session that goes on after another starts where that one has come to. -/
theorem exists_of_runIn_bind {session : Session α} {next : α → Session β} {state : world.State}
    {outcome : β × world.State} (ran : (session >>= next).runIn world state = outcome) :
    ∃ value between, session.runIn world state = (value, between) ∧
      (next value).runIn world between = outcome := by
  rw [runIn_bind] at ran
  exact ⟨_, _, rfl, ran⟩

/-- In the world of a machine a session comes to what it comes to on the machine. -/
theorem runIn_ofMachine (session : Session α) (machine : Machine) :
    session.runIn .ofMachine machine = session.run machine := by
  induction session generalizing machine with
  | done value => rfl
  | ask request next ih => exact ih _ _

theorem runIn_withLogFilter (session : Session α) (filter : LogFilter) (state : world.State) :
    (session.withLogFilter filter).runIn world state =
      session.runIn (world.filtered filter) state := by
  induction session generalizing state with
  | done value => rfl
  | ask request next ih =>
      cases request
      case log event =>
        have answered : (world.filtered filter).answer (.log event) state =
            if filter.shows event then world.answer (.log event) state else ((), state) := rfl
        rw [withLogFilter]
        change _ = (next ((world.filtered filter).answer (.log event) state).1).runIn _
          ((world.filtered filter).answer (.log event) state).2
        rw [answered]
        split
        · exact ih _ _
        · exact ih _ _
      all_goals exact ih _ _

theorem files_runIn_of_only {session : Session α} (only : session.Only Request.reads)
    (state : world.State) : world.files (session.runIn world state).2 = world.files state := by
  induction session generalizing state with
  | done value => rfl
  | ask request next ih => exact (ih _ (only.2 _) _).trans (world.keeps request state only.1)

end Session

namespace Attempt

/-- What an attempt comes to in a world. -/
def runIn (world : World) (attempt : Attempt ε α) (state : world.State) :
    Except ε α × world.State :=
  Session.runIn world attempt.run state

theorem runIn_eq_mk {attempt : Attempt ε α} {result : Except ε α} {state : world.State}
    (ran : (attempt.runIn world state).1 = result) :
    attempt.runIn world state = (result, (attempt.runIn world state).2) := by
  rw [← ran]

theorem runIn_bind (attempt : Attempt ε α) (next : α → Attempt ε β) (state : world.State) :
    (attempt >>= next).runIn world state =
      match attempt.runIn world state with
      | (.ok value, after) => (next value).runIn world after
      | (.error error, after) => (.error error, after) := by
  have unfolded : (attempt >>= next).runIn world state =
      (ExceptT.bindCont next (attempt.runIn world state).1).runIn world
        (attempt.runIn world state).2 :=
    Session.runIn_bind attempt.run (ExceptT.bindCont next) state
  rw [unfolded]
  rcases attempt.runIn world state with ⟨result, after⟩
  cases result <;> rfl

/-- An attempt that goes on succeeds when both parts do. -/
theorem runIn_bind_eq_ok {attempt : Attempt ε α} {next : α → Attempt ε β}
    {state after : world.State} {value : β} :
    (attempt >>= next).runIn world state = (.ok value, after) ↔
      ∃ first middle, attempt.runIn world state = (.ok first, middle) ∧
        (next first).runIn world middle = (.ok value, after) := by
  rw [runIn_bind]
  rcases attempt.runIn world state with ⟨result, middle⟩
  cases result with
  | ok first =>
      constructor
      · exact fun onwards => ⟨first, middle, rfl, onwards⟩
      · rintro ⟨_, _, ⟨⟩, onwards⟩
        exact onwards
  | error error => simp

theorem runIn_lift (session : Session α) (state : world.State) :
    (liftM session : Attempt ε α).runIn world state =
      (.ok (session.runIn world state).1, (session.runIn world state).2) :=
  Session.runIn_bind session (fun value => pure (Except.ok value : Except ε α)) state

theorem runIn_lift_bind (session : Session α) (next : α → Attempt ε β) (state : world.State) :
    (liftM session >>= next).runIn world state =
      (next (session.runIn world state).1).runIn world (session.runIn world state).2 := by
  rw [runIn_bind, runIn_lift]

theorem runIn_ofSession (wrap : δ → ε) (session : Session (Except δ α)) (state : world.State) :
    (ofSession wrap session).runIn world state =
      ((session.runIn world state).1.mapError wrap, (session.runIn world state).2) := by
  rw [ofSession, runIn, ExceptT.run_mk, Session.runIn_bind]
  cases (session.runIn world state).1 <;> rfl

theorem runIn_ofSession_eq_ok {wrap : δ → ε} {session : Session (Except δ α)} {value : α}
    {state after : world.State} :
    (ofSession wrap session).runIn world state = (.ok value, after) ↔
      session.runIn world state = (.ok value, after) := by
  rw [runIn_ofSession]
  rcases session.runIn world state with ⟨result, last⟩
  cases result with
  | ok first => simp
  | error error => simp

theorem runIn_mapError (wrap : δ → ε) (attempt : Attempt δ α) (state : world.State) :
    (mapError wrap attempt).runIn world state =
      ((attempt.runIn world state).1.mapError wrap, (attempt.runIn world state).2) :=
  runIn_ofSession wrap attempt.run state

theorem runIn_mapError_eq_ok {wrap : δ → ε} {attempt : Attempt δ α} {value : α}
    {state after : world.State} :
    (mapError wrap attempt).runIn world state = (.ok value, after) ↔
      attempt.runIn world state = (.ok value, after) :=
  runIn_ofSession_eq_ok

theorem runIn_mapError_bind (wrap : δ → ε) (attempt : Attempt δ α) (next : α → Attempt ε β)
    (state : world.State) :
    (mapError wrap attempt >>= next).runIn world state =
      match attempt.runIn world state with
      | (.ok value, after) => (next value).runIn world after
      | (.error error, after) => (.error (wrap error), after) := by
  rw [runIn_bind, runIn_mapError]
  rcases attempt.runIn world state with ⟨result, after⟩
  cases result <;> rfl

theorem files_runIn_of_only {attempt : Attempt ε α} (only : Only Request.reads attempt)
    (state : world.State) : world.files (attempt.runIn world state).2 = world.files state :=
  Session.files_runIn_of_only only state

theorem files_eq_of_only {attempt : Attempt ε α} {result : Except ε α} {state after : world.State}
    (only : Only Request.reads attempt) (ran : attempt.runIn world state = (result, after)) :
    world.files after = world.files state := by
  rw [← files_runIn_of_only only state, ran]

/-- Whether an attempt fails in a world and leaves the files as they are. -/
def FailsCleanly (world : World) (attempt : Attempt ε α) (state : world.State) : Prop :=
  ∃ error after, attempt.runIn world state = (.error error, after) ∧
    world.files after = world.files state

theorem failsCleanly_of_only {attempt : Attempt ε α} {error : ε} {state after : world.State}
    (only : Only Request.reads attempt) (ran : attempt.runIn world state = (.error error, after)) :
    attempt.FailsCleanly world state :=
  ⟨error, after, ran, files_eq_of_only only ran⟩

/-- An attempt fails cleanly when it comes to what one comes to that does, with the same
files. -/
theorem FailsCleanly.of_eq {attempt other : Attempt ε α} {state middle : world.State}
    (fails : FailsCleanly world other middle)
    (same : attempt.runIn world state = other.runIn world middle)
    (kept : world.files middle = world.files state) : FailsCleanly world attempt state := by
  obtain ⟨error, after, ran, keptToo⟩ := fails
  exact ⟨error, after, same.trans ran, keptToo.trans kept⟩

theorem FailsCleanly.bind {attempt : Attempt ε α} {state : world.State}
    (fails : FailsCleanly world attempt state) (next : α → Attempt ε β) :
    FailsCleanly world (attempt >>= next) state := by
  obtain ⟨error, after, ran, kept⟩ := fails
  refine ⟨error, after, ?_, kept⟩
  rw [runIn_bind, ran]

end Attempt

end SymbolIndex
