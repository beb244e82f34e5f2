import SymbolIndex.Index.Assembly

/-!
# Assembly by several workers

Workers take files in any order, name them, and put the results into a queue of
bounded size; a queue without places passes each result on directly.  A merger
takes the results out of the queue, keeps those that come too early, and merges
them strictly in the order of the files.  After a failure that ends the assembly
the merger raises a flag, and a worker that sees it delivers an empty part in
place of its file.  A worker may see the flag late.

`Step` is a step of one worker or of the merger, and `Reaches` any number of
steps in any interleaving.
-/

namespace SymbolIndex

structure AssemblyJob where
  context : ProjectNaming
  config : AssemblyConfig
  metadata : Metadata
  inputs : List IndexInput

namespace Parallel

/-- The result for one file, with the file's place among the inputs. -/
structure Delivery where
  place : Nat
  label : String
  result : Except IndexingError Contribution

inductive Work where
  | taken (place : Nat)
  /-- It has looked at the flag, and skips the file if the flag was raised. -/
  | looked (place : Nat) (skip : Bool)
  | ready (delivery : Delivery)

/-- What a worker delivers for a file. -/
def Delivery.ofInput (context : ProjectNaming) (place : Nat) (skip : Bool)
    (input : IndexInput) : Delivery where
  place
  label := input.label
  result := if skip then .ok {} else input.contribution context

/-- How far the merger has come. -/
structure Merger where
  /-- The place of the file that is merged next. -/
  next : Nat := 0
  /-- The deliveries that came too early. -/
  waiting : List Delivery := []
  progress : AssemblyProgress

namespace Merger

/-- The waiting delivery whose turn it is. -/
def due? (merger : Merger) : Option Delivery :=
  merger.waiting.find? (·.place = merger.next)

def receive (merger : Merger) (delivery : Delivery) : Merger :=
  { merger with waiting := delivery :: merger.waiting }

def merge (policy : FailurePolicy) (merger : Merger) (delivery : Delivery) : Merger where
  next := merger.next + 1
  waiting := merger.waiting.filter (·.place ≠ merger.next)
  progress := merger.progress.add policy delivery.label delivery.result

end Merger

/-- A moment of an assembly. -/
structure State where
  /-- The places of the files that no worker has taken. -/
  untaken : List Nat
  workers : List Work := []
  queue : List Delivery := []
  merger : Merger
  raised : Bool := false

namespace State

def start (job : AssemblyJob) : State where
  untaken := List.range job.inputs.length
  merger := { progress := .start job.metadata }

/-- The moment at which everything has been delivered and merged. -/
def Finished (state : State) : Prop :=
  state.untaken = [] ∧ state.workers = [] ∧ state.queue = [] ∧ state.merger.due? = none

def outcome (state : State) : Except AssemblyError AssemblyReport :=
  state.merger.progress.finish

end State

/-- One step of a worker or of the merger. -/
inductive Step (job : AssemblyJob) : State → State → Prop where
  /-- A free worker takes any file that is left.  Zero threads leave it open how
  many workers there are. -/
  | take {state : State} {before after : List Nat} {place : Nat}
      (left : state.untaken = before ++ place :: after)
      (free : job.config.threads = 0 ∨ state.workers.length < job.config.threads) :
      Step job state { state with
        untaken := before ++ after
        workers := .taken place :: state.workers }
  /-- A worker looks at the flag.  It sees a raised flag only if it is raised. -/
  | look {state : State} {before after : List Work} {place : Nat} {skip : Bool}
      (taken : state.workers = before ++ .taken place :: after)
      (seen : skip → state.raised) :
      Step job state { state with
        workers := before ++ .looked place skip :: after }
  /-- A worker names its file, or skips it. -/
  | name {state : State} {before after : List Work} {place : Nat} {skip : Bool}
      {input : IndexInput}
      (looked : state.workers = before ++ .looked place skip :: after)
      (found : job.inputs[place]? = some input) :
      Step job state { state with
        workers := before ++ .ready (.ofInput job.context place skip input) :: after }
  /-- A worker delivers its result if there is room in the queue. -/
  | send {state : State} {before after : List Work} {delivery : Delivery}
      (ready : state.workers = before ++ .ready delivery :: after)
      (room : state.queue.length < job.config.queueSize) :
      Step job state { state with
        workers := before ++ after
        queue := state.queue ++ [delivery] }
  /-- A worker hands its result to the waiting merger when the queue has no
  places. -/
  | hand {state : State} {before after : List Work} {delivery : Delivery}
      (ready : state.workers = before ++ .ready delivery :: after)
      (direct : job.config.queueSize = 0)
      (idle : state.merger.due? = none) :
      Step job state { state with
        workers := before ++ after
        merger := state.merger.receive delivery }
  /-- The merger takes the first delivery of the queue when no waiting one is
  due. -/
  | receive {state : State} {delivery : Delivery} {rest : List Delivery}
      (first : state.queue = delivery :: rest)
      (idle : state.merger.due? = none) :
      Step job state { state with
        queue := rest
        merger := state.merger.receive delivery }
  /-- The merger merges the waiting delivery that is due, and raises the flag if
  the assembly has ended with it. -/
  | merge {state : State} {delivery : Delivery}
      (due : state.merger.due? = some delivery) :
      Step job state { state with
        merger := state.merger.merge job.config.policy delivery
        raised := state.raised ||
          (state.merger.merge job.config.policy delivery).progress.aborted.isSome }

/-- Any number of steps, in any interleaving. -/
inductive Reaches (job : AssemblyJob) : State → State → Prop where
  | refl (state : State) : Reaches job state state
  | step {first middle last : State} (reaches : Reaches job first middle)
      (step : Step job middle last) : Reaches job first last

end Parallel

end SymbolIndex
