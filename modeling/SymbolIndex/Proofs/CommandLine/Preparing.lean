import SymbolIndex.Proofs.Analysis.Answers
import SymbolIndex.Proofs.ReadOnly

/-!
# What an index is made from

The command that makes an index finds out how its files are named, which files of analyzer
output there are, and whether there are workers to name them.  Where one of these is not to
be had the command ends, and all that it has asked for by then leaves the files as they are.
-/

namespace SymbolIndex

namespace World

variable {world : World} {dir : FilePath} {state last : world.State}
  {files : List AnalyzerOutput}

theorem HasAnalyses.not_cannotWalk (has : world.HasAnalyses dir state files last) :
    ¬ world.CannotWalk dir state := by
  rintro ⟨present, walk⟩
  cases has with
  | missing absent => cases absent.symm.trans present
  | found presentToo walkToo =>
      cases present.symm.trans presentToo
      cases walk.symm.trans walkToo

/-- The analyses that are seen in a directory are known up to their order. -/
theorem HasAnalyses.unique {others : List AnalyzerOutput} {otherLast : world.State}
    (has : world.HasAnalyses dir state files last)
    (hasToo : world.HasAnalyses dir state others otherLast) :
    files.Perm others ∧ last = otherLast := by
  cases has with
  | missing absent =>
      cases hasToo with
      | missing absentToo =>
          cases absent.symm.trans absentToo
          exact ⟨.refl _, rfl⟩
      | found present => cases absent.symm.trans present
  | found present walk all =>
      cases hasToo with
      | missing absent => cases absent.symm.trans present
      | found presentToo walkToo allToo =>
          cases present.symm.trans presentToo
          cases walk.symm.trans walkToo
          exact ⟨all.trans allToo.symm, rfl⟩

end World

namespace CommandLine

variable (world : World) (settings : Settings) (given : IndexArguments)

/-- Whether it is found out in what the files of a project are named. -/
inductive Identified (state : world.State) : ProjectNaming → world.State → Prop where
  | intro {identity : ProjectIdentity} {registry : Registry} {resolved known : world.State}
    (identify : (given.identify settings).runIn world state = (.ok identity, resolved))
    (register : (Registry.load (given.packageOrigin settings)).runIn world resolved =
      (.ok registry, known)) :
    Identified state (given.naming settings identity registry) known

/-- Whether a command comes to where it asks for workers: a missing analysis is warned of,
and the queue of the workers has a size. -/
inductive Asks (files : List AnalyzerOutput) (state : world.State) : world.State → Prop where
  | intro {warned checked located asked : world.State} {checks : Bool} {directory : FilePath}
    {moment : Nat}
    (warn : (warnOfNoFiles (given.analysisDirectory settings) files).runIn world state =
      ((), warned))
    (check : Session.checksOverflow.runIn world warned = (checks, checked))
    (fits : checks = true → max settings.indexing.threads 1 * 16 < 2 ^ 64)
    (locate : Session.workingDirectory.runIn world checked = (directory, located))
    (time : Session.clock.runIn world located = (moment, asked)) :
    Asks files state asked

/-- The request for workers, which has a queue of sixteen places for each of them. -/
def askForWorkers : Session (Except WorkersError Unit) :=
  Session.startWorkers (max settings.indexing.threads 1)
    (max settings.indexing.threads 1 * 16 % 2 ^ 64)

/-- Whether there are workers to name some files. -/
inductive Staffed (files : List AnalyzerOutput) (state : world.State) : Prop where
  | intro {asked ready : world.State} (asks : Asks world settings given files state asked)
    (start : (askForWorkers settings).runIn world asked = (.ok (), ready))

/-- Whether there are no workers to name some files. -/
inductive Unstaffed (files : List AnalyzerOutput) (state : world.State) : Prop where
  /-- The program stops where the size of the queue is no machine word. -/
  | overflow {warned checked : world.State}
    (warn : (warnOfNoFiles (given.analysisDirectory settings) files).runIn world state =
      ((), warned))
    (check : Session.checksOverflow.runIn world warned = (true, checked))
    (large : 2 ^ 64 ≤ max settings.indexing.threads 1 * 16)
  | refused {asked after : world.State} {error : WorkersError}
    (asks : Asks world settings given files state asked)
    (refuse : (askForWorkers settings).runIn world asked = (.error error, after))

/-- Why an index cannot be made. -/
inductive Unprepared (state : world.State) : Prop where
  | identity {error : ResolutionError} {after : world.State}
    (unresolved : (given.identify settings).runIn world state = (.error error, after))
  | packages {identity : ProjectIdentity} {error : RegistryUnavailable}
    {resolved after : world.State}
    (identify : (given.identify settings).runIn world state = (.ok identity, resolved))
    (unavailable : (Registry.load (given.packageOrigin settings)).runIn world resolved =
      (.error error, after))
  | directory {context : ProjectNaming} {known : world.State}
    (identified : Identified world settings given state context known)
    (unreadable : world.CannotWalk (given.analysisDirectory settings) known)
  | workers {context : ProjectNaming} {files : List AnalyzerOutput} {known listed : world.State}
    (identified : Identified world settings given state context known)
    (list : world.HasAnalyses (given.analysisDirectory settings) known files listed)
    (unstaffed : Unstaffed world settings given files listed)

/-- Whether all is there that an index is made from: the files of an analyzer in the order of
their paths, in what they are named, and workers. -/
inductive Prepared (state : world.State) (context : ProjectNaming) (files : List AnalyzerOutput)
    (listed : world.State) : Prop where
  | intro {known : world.State} (identified : Identified world settings given state context known)
    (list : world.HasAnalyses (given.analysisDirectory settings) known files listed)
    (staffed : Staffed world settings given files listed)

variable {world settings given} {state asked known listed : world.State}
  {context : ProjectNaming} {files : List AnalyzerOutput}

theorem Identified.unique {other : ProjectNaming} {otherKnown : world.State}
    (identified : Identified world settings given state context known)
    (identifiedToo : Identified world settings given state other otherKnown) :
    context = other ∧ known = otherKnown := by
  obtain ⟨identify, register⟩ := identified
  obtain ⟨identifyToo, registerToo⟩ := identifiedToo
  cases identify.symm.trans identifyToo
  cases register.symm.trans registerToo
  exact ⟨rfl, rfl⟩

theorem warnOfNoFiles_of_perm {others : List AnalyzerOutput} (perm : files.Perm others)
    (dir : FilePath) : warnOfNoFiles dir files = warnOfNoFiles dir others := by
  rw [warnOfNoFiles, warnOfNoFiles, perm.isEmpty_eq]

theorem Asks.unique {others : List AnalyzerOutput} {otherAsked : world.State}
    (perm : files.Perm others) (asks : Asks world settings given files state asked)
    (asksToo : Asks world settings given others state otherAsked) : asked = otherAsked := by
  obtain ⟨warn, check, -, locate, time⟩ := asks
  obtain ⟨warnToo, checkToo, -, locateToo, timeToo⟩ := asksToo
  rw [← warnOfNoFiles_of_perm perm] at warnToo
  cases warn.symm.trans warnToo
  cases check.symm.trans checkToo
  cases locate.symm.trans locateToo
  cases time.symm.trans timeToo
  rfl

theorem Staffed.not_unstaffed {others : List AnalyzerOutput} (perm : files.Perm others)
    (staffed : Staffed world settings given files state) :
    ¬ Unstaffed world settings given others state := by
  obtain ⟨asks, start⟩ := staffed
  rintro (⟨warn, check, large⟩ | ⟨asksToo, refuse⟩)
  · obtain ⟨warnToo, checkToo, fits, -, -⟩ := asks
    rw [← warnOfNoFiles_of_perm perm] at warn
    cases warn.symm.trans warnToo
    cases check.symm.trans checkToo
    exact absurd (fits rfl) (Nat.not_lt_of_le large)
  · cases asks.unique perm asksToo
    cases start.symm.trans refuse

/-- Once it is known in what the files are named, only the files or the workers can be missing. -/
theorem Identified.exists_of_unprepared
    (identified : Identified world settings given state context known)
    (unprepared : Unprepared world settings given state) :
    world.CannotWalk (given.analysisDirectory settings) known ∨
      ∃ files listed, world.HasAnalyses (given.analysisDirectory settings) known files listed ∧
        Unstaffed world settings given files listed := by
  cases unprepared with
  | identity unresolved =>
      obtain ⟨identify, -⟩ := identified
      cases identify.symm.trans unresolved
  | packages identify unavailable =>
      obtain ⟨identifyToo, register⟩ := identified
      cases identify.symm.trans identifyToo
      cases register.symm.trans unavailable
  | directory identifiedToo unreadable =>
      obtain ⟨-, rfl⟩ := identified.unique identifiedToo
      exact .inl unreadable
  | workers identifiedToo list unstaffed =>
      obtain ⟨-, rfl⟩ := identified.unique identifiedToo
      exact .inr ⟨_, _, list, unstaffed⟩

theorem Prepared.not_unprepared (prepared : Prepared world settings given state context files listed) :
    ¬ Unprepared world settings given state := by
  obtain ⟨identified, list, staffed⟩ := prepared
  intro unprepared
  obtain unreadable | ⟨_, _, listToo, unstaffed⟩ := identified.exists_of_unprepared unprepared
  · exact list.not_cannotWalk unreadable
  · obtain ⟨perm, rfl⟩ := list.unique listToo
    exact staffed.not_unstaffed perm unstaffed

/-- On a machine, all is there once it is known in what the files are named, unless the queue
of the workers has too many places. -/
theorem not_unprepared_of_machine {filter : LogFilter} {settings : Settings}
    {given : IndexArguments} {machine known : Machine} {context : ProjectNaming}
    (identified : Identified (World.ofMachine.filtered filter) settings given machine context known)
    (places : max settings.indexing.threads 1 * 16 ≤ Machine.mostPlaces) :
    ¬ Unprepared (World.ofMachine.filtered filter) settings given machine := by
  have size : Machine.mostPlaces < 2 ^ 64 := by decide
  intro unprepared
  obtain unreadable | ⟨_, _, -, unstaffed⟩ := identified.exists_of_unprepared unprepared
  · exact World.not_cannotWalk_ofMachine unreadable
  · obtain ⟨-, -, large⟩ | ⟨-, refuse⟩ := unstaffed
    · omega
    · have refused := congrArg Prod.fst refuse
      change Machine.startWorkers (max settings.indexing.threads 1 * 16 % 2 ^ 64) = _ at refused
      rw [Nat.mod_eq_of_lt (by omega), Machine.startWorkers, if_pos places] at refused
      cases refused

end CommandLine

end SymbolIndex
