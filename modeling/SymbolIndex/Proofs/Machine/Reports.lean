import SymbolIndex.Proofs.Machine.Runs

/-!
# What is left of a session besides files

A session that makes only requests that leave the files as they are leaves the files of
every machine as they are.  If it starts no program either, all that it leaves behind are
reports, and reports have no influence on what comes after them.
-/

namespace SymbolIndex

/-- Whether two machines are the same up to their files and what was printed and
reported on them. -/
structure Machine.Alike (first second : Machine) : Prop where
  programs : second.programs = first.programs
  environment : second.environment = first.environment
  processors : second.processors = first.processors
  runs : second.runs = first.runs

namespace Machine.Alike

variable {first second third : Machine}

theorem refl (machine : Machine) : machine.Alike machine :=
  ⟨rfl, rfl, rfl, rfl⟩

theorem trans (start : first.Alike second) (next : second.Alike third) : first.Alike third where
  programs := next.programs.trans start.programs
  environment := next.environment.trans start.environment
  processors := next.processors.trans start.processors
  runs := next.runs.trans start.runs

end Machine.Alike

namespace Machine

/-- A look at the files changes nothing, and what is seen depends on the files alone. -/
theorem answer_of_looks {first second : Machine} (files : second.files = first.files)
    {request : Request} (looks : request.looks = true) :
    (first.answer request).2 = first ∧ (second.answer request).1 = (first.answer request).1 := by
  cases request
  case readFile | kind | list | walk | workingDirectory =>
    refine ⟨rfl, ?_⟩
    simp only [answer, files]
    rfl
  all_goals cases looks

theorem programs_answer (machine : Machine) (request : Request) :
    (machine.answer request).2.programs = machine.programs := by
  have changed {α : Type} (result : Except FileError (α × FileTree)) :
      (machine.change result).2.programs = machine.programs := by
    cases result <;> rfl
  cases request
  case writeFile | makeTemporary | removeFile | rename => exact changed _
  case runProgram program arguments dir =>
    simp only [answer, runProgram]
    split
    · rfl
    · generalize (_ && arguments.all canBeArgument) = starts
      cases starts <;> rfl
  all_goals rfl

theorem alike_answer_of_isQuiet (machine : Machine) {request : Request}
    (quiet : request.isQuiet = true) : machine.Alike (machine.answer request).2 := by
  cases request <;> first | exact ⟨rfl, rfl, rfl, rfl⟩ | cases quiet

/-- What is printed and reported has no influence on an answer. -/
theorem answer_of_alike {first second : Machine} (files : second.files = first.files)
    (alike : first.Alike second) (request : Request) :
    (second.answer request).1 = (first.answer request).1 ∧
      (second.answer request).2.files = (first.answer request).2.files ∧
      (first.answer request).2.Alike (second.answer request).2 := by
  have changed {α : Type} (result : Except FileError (α × FileTree)) :
      (second.change result).1 = (first.change result).1 ∧
        (second.change result).2.files = (first.change result).2.files ∧
        (first.change result).2.Alike (second.change result).2 := by
    cases result with
    | ok changed =>
        exact ⟨rfl, rfl, alike.programs, alike.environment, alike.processors, alike.runs⟩
    | error error => exact ⟨rfl, files, alike⟩
  obtain ⟨tree, programs, environment, processors, runs, output, errors, events⟩ := first
  obtain ⟨rfl, rfl, rfl, rfl⟩ := alike
  obtain rfl := files
  cases request
  case writeFile | makeTemporary | removeFile | rename => exact changed _
  case runProgram program arguments dir =>
    simp only [answer, runProgram]
    split
    · exact ⟨rfl, rfl, rfl, rfl, rfl, rfl⟩
    · generalize (_ && arguments.all canBeArgument) = starts
      cases starts <;> exact ⟨rfl, rfl, rfl, rfl, rfl, rfl⟩
  all_goals exact ⟨rfl, rfl, rfl, rfl, rfl, rfl⟩

end Machine

namespace Session

variable {α : Type}

theorem run_ask (request : Request) (next : request.Answer → Session α) (machine : Machine) :
    (ask request next).run machine =
      (next (machine.answer request).1).run (machine.answer request).2 := rfl

/-- A session installs no program. -/
theorem programs_run (session : Session α) (machine : Machine) :
    (session.run machine).2.programs = machine.programs := by
  induction session generalizing machine with
  | done value => rfl
  | ask request next ih => exact (ih _ _).trans (machine.programs_answer request)

theorem files_run_of_only {session : Session α} (only : session.Only Request.reads)
    (machine : Machine) : (session.run machine).2.files = machine.files := by
  rw [← runIn_ofMachine]
  exact @files_runIn_of_only _ .ofMachine _ only machine

theorem alike_run_of_only {session : Session α} (only : session.Only Request.isQuiet)
    (machine : Machine) : machine.Alike (session.run machine).2 := by
  induction session generalizing machine with
  | done value => exact .refl machine
  | ask request next ih =>
      exact (machine.alike_answer_of_isQuiet only.1).trans (ih _ (only.2 _) _)

theorem run_of_looks {session : Session α} (only : session.Only Request.looks)
    {first second : Machine} (files : second.files = first.files) :
    (session.run first).2 = first ∧ (session.run second).1 = (session.run first).1 := by
  induction session with
  | done value => exact ⟨rfl, rfl⟩
  | ask request next ih =>
      obtain ⟨unchanged, same⟩ := Machine.answer_of_looks files only.1
      obtain ⟨unchangedToo, -⟩ := Machine.answer_of_looks files.symm only.1
      rw [run_ask, run_ask, unchanged, unchangedToo, same]
      exact ih _ (only.2 _)

/-- A session comes to the same on machines that differ only in what was printed and
reported on them. -/
theorem run_of_alike (session : Session α) {first second : Machine}
    (files : second.files = first.files) (alike : first.Alike second) :
    (session.run second).1 = (session.run first).1 ∧
      (session.run second).2.files = (session.run first).2.files := by
  induction session generalizing first second with
  | done value => exact ⟨rfl, files⟩
  | ask request next ih =>
      obtain ⟨same, filesAfter, alikeAfter⟩ := Machine.answer_of_alike files alike request
      have onwards := ih (first.answer request).1 filesAfter alikeAfter
      rw [run_ask, run_ask, same]
      exact onwards

end Session

namespace Attempt

variable {δ ε α β : Type}

theorem files_runOn_of_only {attempt : Attempt ε α} (only : Only Request.reads attempt)
    (machine : Machine) : (attempt.runOn machine).2.files = machine.files :=
  Session.files_run_of_only only machine

theorem runOn_of_looks {attempt : Attempt ε α} (only : Only Request.looks attempt)
    {first second : Machine} (files : second.files = first.files) :
    (attempt.runOn first).2 = first ∧ (attempt.runOn second).1 = (attempt.runOn first).1 :=
  Session.run_of_looks only files

theorem runOn_eq_mk {attempt : Attempt ε α} {result : Except ε α} {machine : Machine}
    (ran : (attempt.runOn machine).1 = result) :
    attempt.runOn machine = (result, (attempt.runOn machine).2) := by
  rw [← ran]

/-- What an attempt that only reports leaves behind is as it was up to the reports. -/
theorem kept_of_quiet {attempt : Attempt ε α} {result : Except ε α} {machine after : Machine}
    (only : Only Request.isQuiet attempt) (ran : attempt.runOn machine = (result, after)) :
    after.files = machine.files ∧ machine.Alike after := by
  have files := files_runOn_of_only (only.mono fun _ => Request.reads_of_isQuiet) machine
  have alike := Session.alike_run_of_only only machine
  change machine.Alike (attempt.runOn machine).2 at alike
  rw [ran] at files alike
  exact ⟨files, alike⟩

/-- After an attempt that only reports, another one comes to what it comes to on the
machine as it was. -/
theorem runOn_of_quiet {first : Attempt δ α} {result : Except δ α} {machine after : Machine}
    (only : Only Request.isQuiet first) (ran : first.runOn machine = (result, after))
    (second : Attempt ε β) :
    (second.runOn after).1 = (second.runOn machine).1 ∧
      (second.runOn after).2.files = (second.runOn machine).2.files :=
  Session.run_of_alike second.run (kept_of_quiet only ran).1 (kept_of_quiet only ran).2

/-- An attempt that goes on after one that only reports comes to the same as if nothing had
been done before. -/
theorem result_bind_of_quiet {first : Attempt ε α} (only : Only Request.isQuiet first)
    (next : α → Attempt ε β) (machine : Machine) :
    ((first >>= next).runOn machine).1 =
      (first.runOn machine).1 >>= fun value => ((next value).runOn machine).1 := by
  rw [runOn_bind]
  cases ran : first.runOn machine with
  | mk result after =>
      cases result with
      | ok value => exact (runOn_of_quiet only ran (next value)).1
      | error error => rfl

/-- Whether two attempts come to the same on a machine and leave the same files. -/
def SameOn (machine : Machine) (first second : Attempt ε α) : Prop :=
  (first.runOn machine).1 = (second.runOn machine).1 ∧
    (first.runOn machine).2.files = (second.runOn machine).2.files

theorem SameOn.trans {first second third : Attempt ε α} {machine : Machine}
    (start : SameOn machine first second) (next : SameOn machine second third) :
    SameOn machine first third :=
  ⟨start.1.trans next.1, start.2.trans next.2⟩

/-- What only reports in the end and gives what it is given makes no difference. -/
theorem sameOn_bind_of_idle {attempt : Attempt ε α} {next : α → Attempt ε α} (machine : Machine)
    (idle : ∀ value after, ((next value).runOn after).1 = .ok value ∧
      ((next value).runOn after).2.files = after.files) :
    SameOn machine (attempt >>= next) attempt := by
  rw [SameOn, runOn_bind]
  rcases attempt.runOn machine with ⟨result, after⟩
  cases result with
  | ok value => exact idle value after
  | error error => exact ⟨rfl, rfl⟩

/-- An attempt that starts with a part that only reports comes to what it goes on with. -/
theorem sameOn_bind_of_quiet {first : Attempt ε α} {next : α → Attempt ε β} {value : α}
    {machine : Machine} (only : Only Request.isQuiet first)
    (ran : (first.runOn machine).1 = .ok value) :
    SameOn machine (first >>= next) (next value) := by
  rw [SameOn, runOn_bind, runOn_eq_mk ran]
  exact runOn_of_quiet only (runOn_eq_mk ran) (next value)

end Attempt

end SymbolIndex
