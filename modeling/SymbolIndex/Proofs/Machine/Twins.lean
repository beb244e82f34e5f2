import SymbolIndex.Proofs.Machine.Reports

/-!
# Sessions that agree on two trees of files

A session that only looks at files that are the same in two trees of files comes
to the same on machines with these trees, if the machines are the same
otherwise.  With one tree instead of two this says that the session changes no
file.
-/

namespace SymbolIndex

/-- Whether a session comes to the same on related machines with two trees of
files, leaves both trees as they are, and leaves the machines related. -/
def Session.Agrees {α : Type} (related : Machine → Machine → Prop) (old new : FileTree)
    (session : Session α) : Prop :=
  ∀ first second : Machine, first.files = old → second.files = new → related first second →
    (session.run second).1 = (session.run first).1 ∧
      (session.run first).2.files = old ∧ (session.run second).2.files = new ∧
      related (session.run first).2 (session.run second).2

/-- Whether an attempt comes to the same on related machines with two trees of
files, leaves both trees as they are, and leaves the machines related. -/
def Attempt.Agrees {ε α : Type} (related : Machine → Machine → Prop) (old new : FileTree)
    (attempt : Attempt ε α) : Prop :=
  Session.Agrees related old new attempt.run

namespace Session

variable {α β : Type} {related : Machine → Machine → Prop} {old new : FileTree}
  {path : FilePath}

theorem agrees_pure (value : α) : Agrees related old new (pure value : Session α) :=
  fun _ _ files filesNew alike => ⟨rfl, files, filesNew, alike⟩

/-- A session that goes on agrees if it agrees in whatever way it goes on. -/
theorem agrees_bind {session : Session α} {next : α → Session β}
    (agrees : Agrees related old new session)
    (onwards : ∀ machine, machine.files = old → Agrees related old new (next (session.run machine).1)) :
    Agrees related old new (session >>= next) := by
  intro first second files filesNew alike
  obtain ⟨same, filesAfter, filesNewAfter, alikeAfter⟩ := agrees first second files filesNew alike
  rw [run_bind, run_bind, same]
  exact onwards first files _ _ filesAfter filesNewAfter alikeAfter

theorem agrees_readFile (same : new.read path = old.read path) :
    Agrees related old new (readFile path) := by
  rintro first second rfl rfl alike
  exact ⟨same, rfl, rfl, alike⟩

theorem agrees_kind (same : new.kind? path = old.kind? path) : Agrees related old new (kind path) := by
  rintro first second rfl rfl alike
  exact ⟨same, rfl, rfl, alike⟩

theorem agrees_list (same : new.list path = old.list path) : Agrees related old new (list path) := by
  rintro first second rfl rfl alike
  exact ⟨same, rfl, rfl, alike⟩

theorem agrees_walk (same : new.walk path = old.walk path) : Agrees related old new (walk path) := by
  rintro first second rfl rfl alike
  refine ⟨?_, rfl, rfl, alike⟩
  rw [run_walk, run_walk, same]

theorem agrees_workingDirectory (same : new.workingDirectory = old.workingDirectory) :
    Agrees related old new workingDirectory := by
  rintro first second rfl rfl alike
  refine ⟨?_, rfl, rfl, alike⟩
  rw [run_workingDirectory, run_workingDirectory, FileTree.workingPath, FileTree.workingPath, same]

theorem agrees_clock : Agrees related old new clock :=
  fun _ _ files filesNew alike => ⟨rfl, files, filesNew, alike⟩

theorem agrees_event (event : LogEvent) :
    Agrees Machine.Alike old new (request (.log event)) :=
  fun _ _ files filesNew alike =>
    ⟨rfl, files, filesNew, ⟨alike.programs, alike.environment, alike.processors, alike.runs⟩⟩

theorem agrees_log (level : LogLevel) (target message : String) :
    Agrees Machine.Alike old new (log level target message) :=
  agrees_event _

theorem agrees_runProgram (program : String) (arguments : List String)
    (same : new.kind? path = old.kind? path) :
    Agrees Machine.Alike old new (runProgram program arguments (some path)) := by
  rintro first second rfl rfl alike
  simp only [run_runProgram, Machine.runProgram, alike.programs, alike.runs, same]
  split
  · exact ⟨rfl, rfl, rfl, alike⟩
  · split
    · exact ⟨rfl, rfl, rfl, ⟨rfl, alike.environment, alike.processors, rfl⟩⟩
    · exact ⟨rfl, rfl, rfl, alike⟩

theorem agrees_pathExists (same : new.kind? path = old.kind? path) :
    Agrees related old new (pathExists path) :=
  agrees_bind (agrees_kind same) fun _ _ => agrees_pure _

theorem agrees_readText (same : new.read path = old.read path) :
    Agrees related old new (readText path) := by
  refine agrees_bind (agrees_readFile same) fun machine _ => ?_
  split
  · exact agrees_pure _
  · split <;> exact agrees_pure _

end Session

namespace Attempt

variable {δ ε α β : Type} {related : Machine → Machine → Prop} {old new : FileTree}

theorem agrees_pure (value : α) : Agrees related old new (pure value : Attempt ε α) :=
  Session.agrees_pure _

theorem agrees_throw (error : ε) : Agrees related old new (throw error : Attempt ε α) :=
  Session.agrees_pure _

theorem agrees_lift {session : Session α} (agrees : Session.Agrees related old new session) :
    Agrees related old new (liftM session : Attempt ε α) :=
  Session.agrees_bind agrees fun _ _ => Session.agrees_pure _

theorem agrees_bind {attempt : Attempt ε α} {next : α → Attempt ε β}
    (agrees : Agrees related old new attempt)
    (onwards : ∀ machine value, machine.files = old → (attempt.runOn machine).1 = .ok value →
      Agrees related old new (next value)) :
    Agrees related old new (attempt >>= next) := by
  refine Session.agrees_bind agrees fun machine files => ?_
  change Session.Agrees related old new (ExceptT.bindCont next (attempt.runOn machine).1)
  cases result : (attempt.runOn machine).1 with
  | ok value => exact onwards machine value files result
  | error error => exact Session.agrees_pure _

theorem agrees_ofSession {session : Session (Except δ α)} (wrap : δ → ε)
    (agrees : Session.Agrees related old new session) : Agrees related old new (ofSession wrap session) := by
  refine Session.agrees_bind agrees fun machine _ => ?_
  split <;> exact Session.agrees_pure _

theorem agrees_mapError {attempt : Attempt δ α} (wrap : δ → ε)
    (agrees : Agrees related old new attempt) : Agrees related old new (mapError wrap attempt) :=
  agrees_ofSession wrap agrees

theorem agrees_log (level : LogLevel) (target message : String) :
    Agrees Machine.Alike old new (liftM (Session.log level target message) : Attempt ε Unit) :=
  agrees_lift (Session.agrees_log level target message)

/-- An attempt that agrees comes to the same. -/
theorem Agrees.result_eq {attempt : Attempt ε α} (agrees : Agrees related old new attempt)
    (first second : Machine) (files : first.files = old) (filesNew : second.files = new)
    (relates : related first second) : (attempt.runOn second).1 = (attempt.runOn first).1 :=
  (agrees first second files filesNew relates).1

/-- An attempt that agrees succeeds on one machine if it succeeds on the other. -/
theorem Agrees.runOn_eq_ok {attempt : Attempt ε α} {value : α} {first second after : Machine}
    (agrees : Agrees related old new attempt) (files : first.files = old)
    (filesNew : second.files = new) (relates : related first second)
    (ran : attempt.runOn first = (.ok value, after)) :
    ∃ last, attempt.runOn second = (.ok value, last) ∧ after.files = old ∧ last.files = new ∧
      related after last := by
  obtain ⟨same, filesAfter, filesLast, relatedAfter⟩ :=
    agrees first second files filesNew relates
  change (attempt.runOn second).1 = (attempt.runOn first).1 at same
  change (attempt.runOn first).2.files = old at filesAfter
  change related (attempt.runOn first).2 (attempt.runOn second).2 at relatedAfter
  rw [ran] at same filesAfter relatedAfter
  have ranTwin : attempt.runOn second = (.ok value, (attempt.runOn second).2) :=
    Prod.ext same rfl
  exact ⟨_, ranTwin, filesAfter, filesLast, relatedAfter⟩

/-- An attempt that agrees with itself changes no file, so it keeps every kind. -/
theorem keeps_of_agrees {kind : FileTree → Prop} {attempt : Attempt ε α}
    (agrees : ∀ tree, Agrees Machine.Alike tree tree attempt) : Keeps kind attempt :=
  keeps_of_files_eq fun machine => (agrees machine.files machine machine rfl rfl (.refl machine)).2.1

end Attempt

end SymbolIndex
