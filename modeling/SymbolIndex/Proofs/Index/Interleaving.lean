import SymbolIndex.Index.Parallel
import SymbolIndex.Proofs.Index.Assembly
import Mathlib.Algebra.GroupWithZero.Nat
import Mathlib.Tactic.Tauto

/-!
# Every interleaving gives the assembly in order

At every moment of an assembly by several workers, each file that is not merged
is at exactly one place, every delivery is the one for its file unless the flag
has been raised, and the progress of the merger is that of an assembly in order
that has come to the same file.  So a finished assembly comes to the same as an
assembly in order, and no assembly gets stuck.
-/

namespace SymbolIndex

/-- The progress of an assembly in order after the first `count` files. -/
def AssemblyJob.progressAfter (job : AssemblyJob) (count : Nat) : AssemblyProgress :=
  (job.inputs.take count).foldl (AssemblyProgress.addInput job.context job.config.policy)
    (.start job.metadata)

namespace AssemblyJob

variable (job : AssemblyJob)

@[simp]
theorem progressAfter_zero : job.progressAfter 0 = .start job.metadata :=
  rfl

theorem progressAfter_succ {count : Nat} {input : IndexInput}
    (found : job.inputs[count]? = some input) :
    job.progressAfter (count + 1) =
      (job.progressAfter count).addInput job.context job.config.policy input := by
  rw [progressAfter, List.take_add_one, found]
  simp [progressAfter]

end AssemblyJob

namespace Parallel

def Work.place : Work → Nat
  | taken place => place
  | looked place _ => place
  | ready delivery => delivery.place

def Work.delivery? : Work → Option Delivery
  | ready delivery => some delivery
  | _ => none

/-- A delivery that a worker could have made, where it could skip the file only
with the flag raised. -/
def Delivery.Genuine (job : AssemblyJob) (raised : Bool) (delivery : Delivery) : Prop :=
  ∃ input skip, job.inputs[delivery.place]? = some input ∧ (skip = true → raised = true) ∧
    delivery = .ofInput job.context delivery.place skip input

namespace State

/-- The places of the files that have not been merged. -/
def unmerged (state : State) : List Nat :=
  state.untaken ++ (state.workers.map Work.place ++
    (state.queue.map Delivery.place ++ state.merger.waiting.map Delivery.place))

/-- The deliveries that have been made and not merged. -/
def deliveries (state : State) : List Delivery :=
  state.workers.filterMap Work.delivery? ++ (state.queue ++ state.merger.waiting)

end State

/-- What holds at every moment of an assembly. -/
structure Consistent (job : AssemblyJob) (state : State) : Prop where
  /-- Each file that has not been merged is at one place. -/
  unmerged_count : ∀ place, state.unmerged.count place =
    if state.merger.next ≤ place ∧ place < job.inputs.length then 1 else 0
  /-- A worker that skips its file has seen the flag. -/
  raised_of_skip : ∀ place, .looked place true ∈ state.workers → state.raised = true
  genuine : ∀ delivery ∈ state.deliveries, delivery.Genuine job state.raised
  raised_eq : state.raised = state.merger.progress.aborted.isSome
  progress_eq : state.merger.progress = job.progressAfter state.merger.next
  next_le : state.merger.next ≤ job.inputs.length

namespace Consistent

theorem start (job : AssemblyJob) : Consistent job (.start job) where
  unmerged_count := by
    intro place
    simp [State.start, State.unmerged, List.count_range]
  raised_of_skip := by simp [State.start]
  genuine := by simp [State.start, State.deliveries]
  raised_eq := rfl
  progress_eq := rfl
  next_le := Nat.zero_le _

/-- A step other than a merge only moves a file from one place to another. -/
theorem of_moved {job : AssemblyJob} {state next : State} (holds : Consistent job state)
    (moved : ∀ place, next.unmerged.count place = state.unmerged.count place)
    (skips : ∀ place, .looked place true ∈ next.workers → state.raised = true)
    (genuine : ∀ delivery ∈ next.deliveries, delivery.Genuine job state.raised)
    (sameNext : next.merger.next = state.merger.next)
    (sameProgress : next.merger.progress = state.merger.progress)
    (sameFlag : next.raised = state.raised) : Consistent job next where
  unmerged_count := by
    intro place
    rw [moved, sameNext]
    exact holds.unmerged_count place
  raised_of_skip := by
    intro place member
    rw [sameFlag]
    exact skips place member
  genuine := by
    intro delivery member
    rw [sameFlag]
    exact genuine delivery member
  raised_eq := by rw [sameFlag, sameProgress]; exact holds.raised_eq
  progress_eq := by rw [sameProgress, sameNext]; exact holds.progress_eq
  next_le := by rw [sameNext]; exact holds.next_le

theorem genuine_of_due {job : AssemblyJob} {state : State} {delivery : Delivery}
    (holds : Consistent job state) (due : state.merger.due? = some delivery) :
    delivery.place = state.merger.next ∧ delivery.Genuine job state.raised := by
  have member := List.mem_of_find?_eq_some due
  refine ⟨by simpa using List.find?_some due, holds.genuine delivery ?_⟩
  simp [State.deliveries, member]

/-- A genuine delivery of the next file makes the progress of an assembly in
order: either the file has not been skipped, or the assembly has ended. -/
theorem add_of_genuine {job : AssemblyJob} {raised : Bool} {delivery : Delivery}
    {progress : AssemblyProgress} (flag : raised = progress.aborted.isSome)
    (genuine : delivery.Genuine job raised) :
    ∃ input, job.inputs[delivery.place]? = some input ∧
      progress.add job.config.policy delivery.label delivery.result =
        progress.addInput job.context job.config.policy input := by
  obtain ⟨input, skip, found, skipped, isDelivery⟩ := genuine
  refine ⟨input, found, ?_⟩
  cases ended : progress.aborted with
  | some failure =>
      rw [AssemblyProgress.addInput, AssemblyProgress.add_of_aborted ended,
        AssemblyProgress.add_of_aborted ended]
  | none =>
      have notSkipped : skip = false := by
        cases skip with
        | false => rfl
        | true => simp [ended, skipped] at flag
      rw [isDelivery, notSkipped]
      rfl

theorem count_waiting_merge (policy : FailurePolicy) (merger : Merger)
    (delivery : Delivery) (place : Nat) :
    ((merger.merge policy delivery).waiting.map Delivery.place).count place =
      if place = merger.next then 0 else (merger.waiting.map Delivery.place).count place := by
  have filtered : (merger.merge policy delivery).waiting.map Delivery.place =
      (merger.waiting.map Delivery.place).filter (· ≠ merger.next) := by
    rw [List.filter_map]
    rfl
  rw [filtered]
  split
  · rename_i isNext
    exact List.count_eq_zero_of_not_mem (by simp [isNext])
  · rename_i notNext
    exact List.count_filter (by simpa using notNext)

/-- A merge takes the file whose turn it is from its place. -/
theorem count_unmerged_merge {job : AssemblyJob} {state next : State} {delivery : Delivery}
    (holds : Consistent job state) (inRange : state.merger.next < job.inputs.length)
    (due : state.merger.due? = some delivery)
    (isNext : next = { state with
      merger := state.merger.merge job.config.policy delivery
      raised := next.raised })
    (place : Nat) :
    next.unmerged.count place =
      if state.merger.next + 1 ≤ place ∧ place < job.inputs.length then 1 else 0 := by
  have counted := holds.unmerged_count place
  have remaining := count_waiting_merge job.config.policy state.merger delivery place
  have atNext : delivery.place = state.merger.next := (holds.genuine_of_due due).1
  have isWaiting : delivery.place ∈ state.merger.waiting.map Delivery.place :=
    List.mem_map_of_mem (List.mem_of_find?_eq_some due)
  rw [atNext, ← List.count_pos_iff] at isWaiting
  rw [isNext]
  simp only [State.unmerged, List.count_append] at counted ⊢
  rw [remaining]
  by_cases same : place = state.merger.next
  · subst same
    rw [if_pos ⟨Nat.le_refl _, inRange⟩] at counted
    rw [if_pos rfl, if_neg (by omega)]
    omega
  · rw [if_neg same, counted]
    congr 1
    simp only [eq_iff_iff]
    omega

theorem merge {job : AssemblyJob} {state : State} {delivery : Delivery}
    (holds : Consistent job state) (due : state.merger.due? = some delivery) :
    Consistent job { state with
      merger := state.merger.merge job.config.policy delivery
      raised := state.raised ||
        (state.merger.merge job.config.policy delivery).progress.aborted.isSome } := by
  obtain ⟨atNext, genuine⟩ := holds.genuine_of_due due
  obtain ⟨input, found, added⟩ := add_of_genuine holds.raised_eq genuine
  rw [atNext] at found
  have inRange : state.merger.next < job.inputs.length :=
    (List.getElem?_eq_some_iff.mp found).1
  refine ⟨holds.count_unmerged_merge inRange due rfl, ?skips, ?deliveries, ?flag, ?progress,
    inRange⟩
  case skips =>
    intro place member
    simp [holds.raised_of_skip place member]
  case deliveries =>
    intro other member
    have stays : other ∈ state.deliveries := by
      simp only [State.deliveries, Merger.merge, List.mem_append, List.mem_filter] at member ⊢
      tauto
    obtain ⟨otherInput, skip, otherFound, skipped, isDelivery⟩ := holds.genuine other stays
    exact ⟨otherInput, skip, otherFound, fun skips => by simp [skipped skips], isDelivery⟩
  case flag =>
    cases ended : state.merger.progress.aborted with
    | some failure =>
        simp [Merger.merge, AssemblyProgress.add_of_aborted ended, ended]
    | none => simp [holds.raised_eq, ended]
  case progress =>
    calc
      state.merger.progress.add job.config.policy delivery.label delivery.result =
          state.merger.progress.addInput job.context job.config.policy input := added
      _ = (job.progressAfter state.merger.next).addInput job.context
            job.config.policy input := by rw [holds.progress_eq]
      _ = job.progressAfter (state.merger.next + 1) :=
        (job.progressAfter_succ found).symm

/-- A worker that skips its file has seen the flag, also after another worker is
gone. -/
theorem raised_of_remaining {job : AssemblyJob} {state : State} (holds : Consistent job state)
    {before after : List Work} {work : Work}
    (working : state.workers = before ++ work :: after) {place : Nat}
    (member : .looked place true ∈ before ++ after) : state.raised = true := by
  refine holds.raised_of_skip place ?_
  rcases List.mem_append.mp member with earlier | later
  · simp [working, earlier]
  · simp [working, later]

theorem step {job : AssemblyJob} {state next : State} (holds : Consistent job state)
    (steps : Step job state next) : Consistent job next := by
  cases steps with
  | @take before after place left free =>
      refine holds.of_moved ?_ ?_ ?_ rfl rfl rfl
      · intro other
        simp only [State.unmerged, left, List.map_cons, Work.place, List.count_append,
          List.count_cons]
        omega
      · intro other member
        simp only [List.mem_cons, reduceCtorEq, false_or] at member
        exact holds.raised_of_skip other member
      · intro delivery member
        exact holds.genuine delivery (by simpa [State.deliveries, Work.delivery?] using member)
  | @look before after place skip taken seen =>
      refine holds.of_moved ?_ ?_ ?_ rfl rfl rfl
      · intro other
        simp [State.unmerged, taken, Work.place]
      · intro other member
        rw [List.mem_append, List.mem_cons, or_left_comm, ← List.mem_append] at member
        rcases member with isLooked | remains
        · cases isLooked
          exact seen rfl
        · exact holds.raised_of_remaining taken remains
      · intro delivery member
        refine holds.genuine delivery ?_
        simpa [State.deliveries, taken, Work.delivery?] using member
  | @name before after place skip input looked found =>
      refine holds.of_moved ?_ ?_ ?_ rfl rfl rfl
      · intro other
        simp [State.unmerged, looked, Work.place, Delivery.ofInput]
      · intro other member
        rw [List.mem_append, List.mem_cons, or_left_comm, ← List.mem_append] at member
        rcases member with isReady | remains
        · cases isReady
        · exact holds.raised_of_remaining looked remains
      · intro delivery member
        by_cases isNew : delivery = .ofInput job.context place skip input
        · refine ⟨input, skip, isNew ▸ found, ?_, ?_⟩
          · intro skips
            exact holds.raised_of_skip place (by simp [looked, skips])
          · rw [isNew]
            rfl
        · refine holds.genuine delivery ?_
          simpa [State.deliveries, looked, Work.delivery?, isNew] using member
  | @send before after delivery ready room =>
      refine holds.of_moved ?_ ?_ ?_ rfl rfl rfl
      · intro other
        simp only [State.unmerged, ready, List.map_append, List.map_cons, List.map_nil,
          Work.place, List.count_append, List.count_cons, List.count_nil]
        omega
      · intro other member
        exact holds.raised_of_remaining ready member
      · intro sent member
        refine holds.genuine sent ?_
        simp only [State.deliveries, ready, List.filterMap_append, List.filterMap_cons,
          Work.delivery?, List.mem_append, List.mem_cons, List.not_mem_nil] at member ⊢
        tauto
  | @receive delivery rest first idle =>
      refine holds.of_moved ?_ ?_ ?_ rfl rfl rfl
      · intro other
        simp only [State.unmerged, first, Merger.receive, List.map_cons, List.count_append,
          List.count_cons]
        omega
      · exact holds.raised_of_skip
      · intro received member
        refine holds.genuine received ?_
        simp only [State.deliveries, first, Merger.receive, List.mem_append,
          List.mem_cons] at member ⊢
        tauto
  | @hand before after delivery ready direct idle =>
      refine holds.of_moved ?_ ?_ ?_ rfl rfl rfl
      · intro other
        simp only [State.unmerged, ready, Merger.receive, List.map_append, List.map_cons,
          Work.place, List.count_append, List.count_cons]
        omega
      · intro other member
        exact holds.raised_of_remaining ready member
      · intro handed member
        refine holds.genuine handed ?_
        simp only [State.deliveries, ready, Merger.receive, List.filterMap_append,
          List.filterMap_cons, Work.delivery?, List.mem_append, List.mem_cons] at member ⊢
        tauto
  | @merge delivery due => exact holds.merge due

theorem of_reaches {job : AssemblyJob} {first last : State} (reaches : Reaches job first last)
    (holds : Consistent job first) : Consistent job last := by
  induction reaches with
  | refl => exact holds
  | step reaches steps ih => exact ih.step steps

/-- Once everything has been delivered, every file has been merged. -/
theorem next_eq_of_finished {job : AssemblyJob} {state : State} (holds : Consistent job state)
    (finished : state.Finished) : state.merger.next = job.inputs.length := by
  obtain ⟨noneUntaken, noWorkers, emptyQueue, noneDue⟩ := finished
  have counted := holds.unmerged_count state.merger.next
  have notWaiting : state.merger.next ∉ state.merger.waiting.map Delivery.place := by
    intro member
    obtain ⟨delivery, isWaiting, atNext⟩ := List.mem_map.mp member
    have notDue := List.find?_eq_none.mp noneDue delivery isWaiting
    simp [atNext] at notDue
  have noneCounted : state.unmerged.count state.merger.next = 0 := by
    simpa [State.unmerged, noneUntaken, noWorkers, emptyQueue,
      List.count_eq_zero] using notWaiting
  rcases Nat.lt_or_ge state.merger.next job.inputs.length with isLeft | isMerged
  · rw [noneCounted, if_pos ⟨Nat.le_refl _, isLeft⟩] at counted
    omega
  · exact Nat.le_antisymm holds.next_le isMerged

/-- A finished assembly comes to the same as an assembly in order. -/
theorem outcome_of_finished {job : AssemblyJob} {state : State} (holds : Consistent job state)
    (finished : state.Finished) :
    state.outcome =
      Index.assemble job.context job.config.policy job.metadata job.inputs := by
  rw [State.outcome, holds.progress_eq, holds.next_eq_of_finished finished,
    AssemblyJob.progressAfter, List.take_length]
  rfl

theorem exists_input {job : AssemblyJob} {state : State} (holds : Consistent job state)
    {place : Nat} (left : place ∈ state.unmerged) :
    ∃ input, job.inputs[place]? = some input := by
  have counted := holds.unmerged_count place
  rw [← List.count_pos_iff] at left
  have inRange : place < job.inputs.length := by
    split at counted <;> omega
  exact ⟨_, List.getElem?_eq_getElem inRange⟩

/-- An assembly does not get stuck: as long as it is not finished, a worker or the
merger can take a step. -/
theorem exists_step {job : AssemblyJob} {state : State} (holds : Consistent job state)
    (unfinished : ¬ state.Finished) : ∃ next, Step job state next := by
  cases due : state.merger.due? with
  | some delivery => exact ⟨_, .merge due⟩
  | none =>
      cases queued : state.queue with
      | cons delivery rest => exact ⟨_, .receive queued due⟩
      | nil =>
          cases working : state.workers with
          | nil =>
              cases left : state.untaken with
              | nil => exact absurd ⟨left, working, queued, due⟩ unfinished
              | cons place rest =>
                  refine ⟨_, @Step.take job state [] rest place left ?_⟩
                  rw [working, List.length_nil]
                  omega
          | cons work others =>
              cases work with
              | taken place =>
                  exact ⟨_, @Step.look job state [] others place false working (by simp)⟩
              | looked place skip =>
                  have member : place ∈ state.unmerged := by
                    simp [State.unmerged, working, Work.place]
                  obtain ⟨input, found⟩ := holds.exists_input member
                  exact ⟨_, @Step.name job state [] others place skip input working found⟩
              | ready delivery =>
                  rcases Nat.eq_zero_or_pos job.config.queueSize with direct | room
                  · exact ⟨_, @Step.hand job state [] others delivery working direct due⟩
                  · exact ⟨_, @Step.send job state [] others delivery working
                      (by simpa [queued] using room)⟩

end Consistent

/-- How many steps a worker still has to do, and the merger after it. -/
def Work.remaining : Work → Nat
  | taken _ => 5
  | looked _ _ => 4
  | ready _ => 3

def State.remaining (state : State) : Nat :=
  6 * state.untaken.length + (state.workers.map Work.remaining).sum +
    2 * state.queue.length + state.merger.waiting.length

theorem remaining_lt_of_step {job : AssemblyJob} {state next : State}
    (steps : Step job state next) : next.remaining < state.remaining := by
  cases steps with
  | take left free =>
      simp only [State.remaining, left, List.length_append, List.length_cons, List.map_cons,
        Work.remaining, List.sum_cons]
      omega
  | look taken seen =>
      simp [State.remaining, taken, Work.remaining]
  | name looked found =>
      simp [State.remaining, looked, Work.remaining]
  | send ready room =>
      simp only [State.remaining, ready, List.map_append, List.map_cons, Work.remaining,
        List.sum_append, List.sum_cons, List.length_append, List.length_cons,
        List.length_nil]
      omega
  | hand ready direct idle =>
      simp only [State.remaining, ready, Merger.receive, List.map_append, List.map_cons,
        Work.remaining, List.sum_append, List.sum_cons, List.length_cons]
      omega
  | receive first idle =>
      simp only [State.remaining, first, Merger.receive, List.length_cons]
      omega
  | @merge delivery due =>
      have shorter : (state.merger.merge job.config.policy delivery).waiting.length <
          state.merger.waiting.length := by
        apply List.length_filter_lt_length_iff_exists.mpr
        exact ⟨delivery, List.mem_of_find?_eq_some due, by simpa using List.find?_some due⟩
      simp only [State.remaining]
      omega

theorem Reaches.head {job : AssemblyJob} {first middle last : State}
    (steps : Step job first middle) (reaches : Reaches job middle last) :
    Reaches job first last := by
  induction reaches with
  | refl => exact .step (.refl first) steps
  | step reaches steps ih => exact .step ih steps

theorem Consistent.exists_finished {job : AssemblyJob} {state : State}
    (holds : Consistent job state) : ∃ last, Reaches job state last ∧ last.Finished := by
  induction bound : state.remaining using Nat.strongRecOn generalizing state with
  | ind remaining ih =>
      by_cases finished : state.Finished
      · exact ⟨state, .refl state, finished⟩
      · obtain ⟨next, steps⟩ := holds.exists_step finished
        obtain ⟨last, reaches, ends⟩ :=
          ih next.remaining (bound ▸ remaining_lt_of_step steps) (holds.step steps) rfl
        exact ⟨last, .head steps reaches, ends⟩

/-- Whatever the workers and the merger do in which order, they can finish, and
when they have finished, the assembly comes to the same as an assembly in order:
to the documents and the failures of the files in the order of the files, or to
the first failure in that order if the policy is to abort. -/
theorem outcome_of_reaches {job : AssemblyJob} {state : State}
    (reaches : Reaches job (.start job) state) :
    (∃ last, Reaches job state last ∧ last.Finished) ∧
      (state.Finished →
        state.outcome =
            Index.assemble job.context job.config.policy job.metadata job.inputs ∧
          state.outcome =
            Index.ofInputs job.context job.config.policy job.metadata job.inputs) := by
  have holds := Consistent.of_reaches reaches (.start job)
  refine ⟨holds.exists_finished, fun finished => ?_⟩
  have inOrder := holds.outcome_of_finished finished
  exact ⟨inOrder, inOrder.trans (Index.assemble_eq_ofInputs _ _ _ _)⟩

def unreadableInput (name : String) : IndexInput :=
  ⟨name, .error (.parse ⟨name⟩)⟩

/-- Two files that cannot be read, of which the first is to be told. -/
def unreadableJob : AssemblyJob where
  context := ⟨.python, "pypi", ⟨"demo", "1.0"⟩, ⟨"/demo"⟩, .ofPackages []⟩
  config := ⟨2, 1, .abort⟩
  metadata := {}
  inputs := [unreadableInput "a.json", unreadableInput "b.json"]

/-- The second file fails before the first one is taken. -/
theorem outcome_of_reaches_unreadable :
    ∃ state, Reaches unreadableJob (.start unreadableJob) state ∧ state.Finished ∧
      state.outcome = .error (.aborted ⟨"a.json", .load (.parse ⟨"a.json"⟩)⟩) := by
  let first : Delivery := .ofInput unreadableJob.context 0 false (unreadableInput "a.json")
  let second : Delivery := .ofInput unreadableJob.context 1 false (unreadableInput "b.json")
  have secondLooked : Reaches unreadableJob (.start unreadableJob)
      ⟨[0], [.looked 1 false], [], ⟨0, [], .start {}⟩, false⟩ :=
    .step (.step (.refl _) (@Step.take _ _ [0] [] 1 rfl (by decide)))
      (@Step.look _ _ [] [] 1 false rfl (by decide))
  have secondWaits : Reaches unreadableJob (.start unreadableJob)
      ⟨[0], [], [], ⟨0, [second], .start {}⟩, false⟩ :=
    .step (.step (.step secondLooked (@Step.name _ _ [] [] 1 false _ rfl rfl))
      (@Step.send _ _ [] [] second rfl (by decide))) (.receive rfl rfl)
  have firstLooked : Reaches unreadableJob (.start unreadableJob)
      ⟨[], [.looked 0 false], [], ⟨0, [second], .start {}⟩, false⟩ :=
    .step (.step secondWaits (@Step.take _ _ [] [] 0 rfl (by decide)))
      (@Step.look _ _ [] [] 0 false rfl (by decide))
  have firstWaits : Reaches unreadableJob (.start unreadableJob)
      ⟨[], [], [], ⟨0, [first, second], .start {}⟩, false⟩ :=
    .step (.step (.step firstLooked (@Step.name _ _ [] [] 0 false _ rfl rfl))
      (@Step.send _ _ [] [] first rfl (by decide))) (.receive rfl rfl)
  have reaches := Reaches.step (.step firstWaits (.merge rfl)) (.merge rfl)
  have finished := (outcome_of_reaches reaches).2 ⟨rfl, rfl, rfl, rfl⟩
  exact ⟨_, reaches, ⟨rfl, rfl, rfl, rfl⟩, finished.2⟩

end Parallel

end SymbolIndex
