import SymbolIndex.Package.Origin
import SymbolIndex.Proofs.Machine.Calls
import SymbolIndex.Proofs.Package.Blocks
import Mathlib.Data.List.Infix
import Mathlib.Data.List.Sublists

/-!
# Packages in batches

A live environment asks once for the names of its packages and then shows the packages, a
batch of names at a time.  If every name is shown by a text of its own, the packages do not
depend on the batches.  A call that fails is the last one, and nothing is loaded.
-/

namespace SymbolIndex

namespace Listing

/-- How a text starts whose first line is a header with a name. -/
def nameHeader : List Char := ['N', 'a', 'm', 'e', ':']

/-- A text that shows some blocks one after the other, with a line of three dashes between
any two.  The last line of a block has a line feed in the block or after it. -/
inductive Shows : List String → String → Prop
  | last {block text : String} (ended : text = block ∨ text = block ++ "\n") :
      Shows [block] text
  | more {block lines text : String} {blocks : List String}
      (ended : block = lines ∨ block = lines ++ "\n") (others : Shows blocks text) :
      Shows (block :: blocks) (lines ++ "\n---\n" ++ text)

theorem packages_eq (text : String) : packages text = packagesIn text.toList := rfl

theorem packages_append_feed (text : String) : packages (text ++ "\n") = packages text := by
  rw [packages_eq, packages_eq, String.toList_append]
  exact packagesIn_append_feed text.toList

/-- A header with a name is in front of a line feed at the end of a text. -/
theorem nameHeader_prefix_of_append_feed {text : List Char}
    (starts : nameHeader <+: text ++ ['\n']) : nameHeader <+: text := by
  rcases List.prefix_concat_iff.mp starts with whole | starts
  · have feed : '\n' ∈ nameHeader := by simp [whole]
    exact absurd feed (by decide)
  · exact starts

theorem not_dashes_prefix_of_nameHeader {text : List Char} (starts : nameHeader <+: text) :
    ¬ dashes <+: text := by
  obtain ⟨rest, rfl⟩ := starts
  intro dashed
  exact absurd (List.cons_prefix_cons.mp dashed).1 (by decide)

/-- A text that shows blocks with names tells the packages of each of the blocks. -/
theorem packages_of_shows {blocks : List String} {text : String} (shows : Shows blocks text)
    (named : ∀ block ∈ blocks, nameHeader <+: block.toList) :
    packages text = blocks.flatMap packages ∧ nameHeader <+: text.toList := by
  induction shows with
  | @last block text ended =>
      have named := named block (by simp)
      rcases ended with rfl | rfl
      · simp [named]
      · rw [packages_append_feed, String.toList_append]
        exact ⟨by simp, named.trans (List.prefix_append _ _)⟩
  | @more block lines text blocks ended others ih =>
      have first := named block (by simp)
      obtain ⟨told, starts⟩ := ih fun other member => named other (by simp [member])
      have chars : (lines ++ "\n---\n" ++ text).toList =
          lines.toList ++ (separator ++ '\n' :: text.toList) := by
        simp [separator, dashes]
      have same : packages block = packages lines := by
        rcases ended with rfl | rfl
        · rfl
        · exact packages_append_feed lines
      have linesNamed : nameHeader <+: lines.toList := by
        rcases ended with rfl | rfl
        · exact first
        · exact nameHeader_prefix_of_append_feed (by simpa using first)
      rw [packages_eq, chars,
        packagesIn_append_line _ (not_dashes_prefix_of_nameHeader starts), ← packages_eq,
        ← packages_eq, told, List.flatMap_cons, same]
      exact ⟨rfl, linesNamed.trans (List.prefix_append _ _)⟩

theorem shows_intercalate {blocks : List String} (nonempty : blocks ≠ []) :
    Shows blocks (String.intercalate "\n---\n" blocks) := by
  induction blocks with
  | nil => exact absurd rfl nonempty
  | cons block blocks ih =>
      cases blocks with
      | nil => exact .last (.inl (by simp))
      | cons next blocks =>
          rw [String.intercalate_cons_cons]
          exact .more (.inl rfl) (ih (by simp))

end Listing

namespace ProgramCall

/-- How a failure tells what was called. -/
def called (call : ProgramCall) : String :=
  let command := call.arguments.headD ""
  s!"{call.program} {command}"

/-- What a call has printed, or why it failed. -/
def result (call : ProgramCall) : Except CommandFailure String :=
  match call.answer with
  | none => .error .notStarted
  | some answer =>
    if answer.succeeded then .ok (Text.decodeLossy answer.output)
    else .error (.failed (Text.trim (Text.decodeLossy answer.errors)))

end ProgramCall

namespace LiveEnvironment

variable {α β : Type} {world : World}

section Failure

/-- Whether an attempt ends with the first of its calls that fails. -/
def StopsAtFailure (attempt : Attempt SourceError α) : Prop :=
  ∀ (world : World) (state : world.State) (earlier : List ProgramCall) (call : ProgramCall)
    (later : List ProgramCall) (failure : CommandFailure),
    attempt.calls world state = earlier ++ call :: later → call.result = .error failure →
      later = [] ∧ (attempt.runIn world state).1 = .error (.command call.called failure)

theorem stopsAtFailure_of_silent {attempt : Attempt SourceError α}
    (silent : ∀ (world : World) (state : world.State), attempt.calls world state = []) :
    StopsAtFailure attempt := by
  intro world state earlier call later failure split
  rw [silent] at split
  simp at split

theorem stopsAtFailure_bind {attempt : Attempt SourceError α} {next : α → Attempt SourceError β}
    (stops : StopsAtFailure attempt) (onwards : ∀ value, StopsAtFailure (next value)) :
    StopsAtFailure (attempt >>= next) := by
  intro world state earlier call later failure split failed
  rw [Attempt.calls_bind] at split
  rw [Attempt.runIn_bind]
  have first := stops world state
  rcases ran : attempt.runIn world state with ⟨result, after⟩
  rw [ran] at split first
  cases result with
  | error error =>
      rw [List.append_nil] at split
      obtain ⟨rfl, same⟩ := first _ _ _ _ split failed
      cases same
      exact ⟨rfl, rfl⟩
  | ok value =>
      rcases List.append_eq_append_iff.mp split with ⟨before, -, second⟩ | ⟨behind, made, whole⟩
      · exact onwards value world after _ _ _ _ second failed
      · cases behind with
        | nil => exact onwards value world after [] _ _ _ whole.symm failed
        | cons other behind =>
            -- a failed call of the first part would have been its result
            obtain ⟨rfl, -⟩ := List.cons.inj whole
            cases (first _ _ _ _ made failed).2

end Failure

section Query

variable (environment : LiveEnvironment) (command : String) (arguments : List String)
  (state : world.State)

theorem query_eq : environment.query command arguments =
    (liftM (Session.runProgram environment.program (command :: arguments) none) :
      Attempt SourceError (Option ProgramOutput)) >>= fun answer =>
        ExceptT.mk (pure ((ProgramCall.result
          ⟨⟨environment.program, command :: arguments⟩, answer⟩).mapError
            (.command s!"{environment.program} {command}"))) := by
  refine bind_congr fun answer => ?_
  cases answer with
  | none => rfl
  | some answer =>
      simp only [ProgramCall.result]
      split
      · rfl
      · rfl

theorem calls_query : (environment.query command arguments).calls world state =
    [world.call environment.program (command :: arguments) state] := by
  rw [query_eq, Attempt.calls_bind, Attempt.runIn_lift, Attempt.calls_lift]
  rfl

theorem runIn_query : (environment.query command arguments).runIn world state =
    ((world.call environment.program (command :: arguments) state).result.mapError
        (.command (world.call environment.program (command :: arguments) state).called),
      (world.answer (.runProgram environment.program (command :: arguments) none) state).2) := by
  rw [query_eq, Attempt.runIn_lift_bind]
  rfl

theorem stopsAtFailure_query : StopsAtFailure (environment.query command arguments) := by
  intro world state earlier call later failure split failed
  rw [calls_query] at split
  rw [runIn_query]
  obtain ⟨rfl, alone⟩ | ⟨_, -, none⟩ := List.cons_eq_append_iff.mp split
  · obtain ⟨rfl, rfl⟩ := List.cons.inj alone
    exact ⟨rfl, by rw [failed]; rfl⟩
  · simp at none

end Query

section Batches

theorem flatten_chunksWithin (size : Nat) {fuel : Nat} {items : List α}
    (enough : items.length ≤ fuel) : (chunksWithin size fuel items).flatten = items := by
  fun_induction chunksWithin size fuel items with
  | case1 => rfl
  | case2 => simp at enough
  | case3 fuel item rest ih =>
      rw [List.length_cons] at enough
      have fewer : (rest.drop size).length ≤ fuel := by
        rw [List.length_drop]
        omega
      rw [List.flatten_cons, ih fewer, List.cons_append, List.take_append_drop]

theorem length_of_mem_chunksWithin {size fuel : Nat} {items chunk : List α}
    (isChunk : chunk ∈ chunksWithin size fuel items) :
    1 ≤ chunk.length ∧ chunk.length ≤ size + 1 := by
  fun_induction chunksWithin size fuel items with
  | case1 => simp at isChunk
  | case2 => simp at isChunk
  | case3 fuel item rest ih =>
      rcases List.mem_cons.mp isChunk with rfl | isChunk
      · simp
      · exact ih isChunk

variable (environment : LiveEnvironment) (names : List String)

theorem flatten_batches : (environment.batches names).flatten = names :=
  flatten_chunksWithin _ (Nat.le_refl _)

theorem length_of_mem_batches {batch : List String}
    (isBatch : batch ∈ environment.batches names) :
    1 ≤ batch.length ∧ batch.length ≤ max environment.batchSize 1 := by
  have within := length_of_mem_chunksWithin isBatch
  omega

end Batches

section Show

/-- The run that shows the packages of some names. -/
def showRun (environment : LiveEnvironment) (batch : List String) : ProgramRun :=
  ⟨environment.program, "show" :: "-f" :: batch⟩

theorem showBatches_cons (environment : LiveEnvironment) (batch : List String)
    (rest : List (List String)) : environment.showBatches (batch :: rest) =
      environment.query "show" ("-f" :: batch) >>= fun shown =>
        environment.showBatches rest >>= fun more =>
          pure (Listing.packages shown ++ more) := rfl

theorem stopsAtFailure_bind_pure {attempt : Attempt SourceError α} (stops : StopsAtFailure attempt)
    (after : α → β) : StopsAtFailure (attempt >>= fun value => pure (after value)) :=
  stopsAtFailure_bind stops fun _ => stopsAtFailure_of_silent fun _ _ => rfl

theorem stopsAtFailure_showBatches (environment : LiveEnvironment)
    (batches : List (List String)) : StopsAtFailure (environment.showBatches batches) := by
  induction batches with
  | nil => exact stopsAtFailure_of_silent fun _ _ => rfl
  | cons batch rest ih =>
      rw [showBatches_cons]
      exact stopsAtFailure_bind (stopsAtFailure_query _ _ _) fun _ => stopsAtFailure_bind_pure ih _

/-- Batches are shown in their order, one call for each, until a call fails. -/
theorem runs_showBatches (environment : LiveEnvironment) (batches : List (List String))
    (state : world.State) :
    ∃ made, made <+: batches ∧
      ((environment.showBatches batches).calls world state).map ProgramCall.toProgramRun =
        made.map environment.showRun ∧
      ∀ packages, ((environment.showBatches batches).runIn world state).1 = .ok packages →
        made = batches := by
  induction batches generalizing state with
  | nil => exact ⟨[], List.prefix_rfl, rfl, fun _ _ => rfl⟩
  | cons batch rest ih =>
      rw [showBatches_cons, Attempt.calls_bind, Attempt.runIn_bind, calls_query, runIn_query]
      cases (world.call environment.program ("show" :: "-f" :: batch) state).result with
      | error failure => exact ⟨[batch], by simp, rfl, nofun⟩
      | ok shown =>
          simp only [Fallible.mapError_ok, Attempt.calls_bind_pure, Attempt.runIn_bind_pure]
          obtain ⟨made, start, runs, whole⟩ := ih
            (world.answer (.runProgram environment.program ("show" :: "-f" :: batch) none) state).2
          refine ⟨batch :: made, by simpa using start, by rw [List.map_append, runs]; rfl, ?_⟩
          intro packages loaded
          obtain ⟨more, isMore, -⟩ := Fallible.map_eq_ok.mp loaded
          rw [whole more isMore]

/-- The calls for some names show a first part of them, batch by batch, and all of them if
no call fails. -/
theorem exists_shown_batches (environment : LiveEnvironment) (names : List String)
    (state : world.State) :
    let shown := environment.showBatches (environment.batches names)
    ∃ batches : List (List String),
      (shown.calls world state).map ProgramCall.toProgramRun = batches.map environment.showRun ∧
      (∀ batch ∈ batches, 1 ≤ batch.length ∧ batch.length ≤ max environment.batchSize 1) ∧
      batches.flatten <+: names ∧
      ∀ packages, (shown.runIn world state).1 = .ok packages → batches.flatten = names := by
  obtain ⟨batches, start, runs, whole⟩ :=
    runs_showBatches environment (environment.batches names) state
  have within := start.flatten
  rw [flatten_batches] at within
  refine ⟨batches, runs, fun batch isBatch => ?_, within, fun packages loaded => ?_⟩
  · exact length_of_mem_batches environment names (start.subset isBatch)
  · rw [whole packages loaded, flatten_batches]

/-- Whether a program shows some names, however many at a time, by a text for each that
starts with a header with a name. -/
structure ShowsNames (world : World) (program : String) (names : List String)
    (text : String → String) : Prop where
  named : ∀ name ∈ names, Listing.nameHeader <+: (text name).toList
  shows : ∀ batch, batch ≠ [] → batch <:+: names → ∀ state : world.State, ∃ shown,
    (world.call program ("show" :: "-f" :: batch) state).result = .ok shown ∧
      Listing.Shows (batch.map text) shown

theorem runIn_showBatches {environment : LiveEnvironment} {names : List String}
    {text : String → String} (showsNames : ShowsNames world environment.program names text)
    {batches : List (List String)}
    (areBatches : ∀ batch ∈ batches, batch ≠ [] ∧ batch <:+: names) (state : world.State) :
    ((environment.showBatches batches).runIn world state).1 =
      .ok (batches.flatten.flatMap fun name => Listing.packages (text name)) := by
  induction batches generalizing state with
  | nil => rfl
  | cons batch rest ih =>
      obtain ⟨nonempty, inside⟩ := areBatches batch (by simp)
      obtain ⟨shown, answered, shows⟩ := showsNames.shows batch nonempty inside state
      have named : ∀ block ∈ batch.map text, Listing.nameHeader <+: block.toList := by
        intro block member
        obtain ⟨name, isName, rfl⟩ := List.mem_map.mp member
        exact showsNames.named name (inside.subset isName)
      have others := ih (fun other member => areBatches other (by simp [member]))
        (world.answer (.runProgram environment.program ("show" :: "-f" :: batch) none) state).2
      rw [showBatches_cons, Attempt.runIn_bind, runIn_query, answered]
      simp only [Fallible.mapError_ok, Attempt.runIn_bind_pure]
      rw [others, (Listing.packages_of_shows shows named).1, List.flatMap_map,
        List.flatten_cons, List.flatMap_append]
      rfl

end Show

section Load

theorem load_eq (environment : LiveEnvironment) : environment.load =
    environment.query "list" ["--format=json"] >>= fun listed =>
      match listedNames? listed with
      | none => throw (.command s!"{environment.program} list" .unexpectedOutput)
      | some names => environment.showBatches (environment.batches names) >>= fun packages =>
        (liftM (Session.log .info target s!"[packages] pip reported {packages.length} packages") :
          Attempt SourceError Unit) >>= fun _ => pure packages := rfl

theorem calls_reported (packages : List Package) (state : world.State) :
    ((liftM (Session.log .info target s!"[packages] pip reported {packages.length} packages") :
      Attempt SourceError Unit) >>= fun _ => pure packages).calls world state = [] := rfl

theorem stopsAtFailure_load (environment : LiveEnvironment) :
    StopsAtFailure environment.load := by
  rw [load_eq]
  refine stopsAtFailure_bind (stopsAtFailure_query _ _ _) fun listed => ?_
  cases listedNames? listed with
  | none => exact stopsAtFailure_of_silent fun _ _ => rfl
  | some names =>
      exact stopsAtFailure_bind (stopsAtFailure_showBatches _ _) fun packages =>
        stopsAtFailure_of_silent fun _ state => calls_reported packages state

section Listed

variable {environment : LiveEnvironment} {state : world.State} {listed : String}

theorem calls_load_of_failed {failure : CommandFailure}
    (failed : (world.call environment.program ["list", "--format=json"] state).result =
      .error failure) :
    environment.load.calls world state =
      [world.call environment.program ["list", "--format=json"] state] := by
  rw [load_eq, Attempt.calls_bind, calls_query, runIn_query, failed]
  rfl

theorem runIn_load_of_unlisted
    (answered : (world.call environment.program ["list", "--format=json"] state).result =
      .ok listed)
    (unlisted : listedNames? listed = none) :
    environment.load.calls world state =
        [world.call environment.program ["list", "--format=json"] state] ∧
      (environment.load.runIn world state).1 = .error (.command
        (world.call environment.program ["list", "--format=json"] state).called
        .unexpectedOutput) := by
  have called : (world.call environment.program ["list", "--format=json"] state).called =
      s!"{environment.program} list" := String.append_assoc
  rw [load_eq, Attempt.calls_bind, Attempt.runIn_bind, calls_query, runIn_query, answered, called]
  simp only [Fallible.mapError_ok, unlisted]
  exact ⟨rfl, rfl⟩

/-- Once the names are known, everything depends on how their batches are shown. -/
theorem runIn_load_of_listed {names : List String}
    (answered : (world.call environment.program ["list", "--format=json"] state).result =
      .ok listed)
    (isListed : listedNames? listed = some names) :
    let after :=
      (world.answer (.runProgram environment.program ["list", "--format=json"] none) state).2
    environment.load.calls world state =
        world.call environment.program ["list", "--format=json"] state ::
          (environment.showBatches (environment.batches names)).calls world after ∧
      (environment.load.runIn world state).1 =
        ((environment.showBatches (environment.batches names)).runIn world after).1 := by
  intro after
  rw [load_eq, Attempt.calls_bind, Attempt.runIn_bind, calls_query, runIn_query, answered]
  simp only [Fallible.mapError_ok, isListed]
  rw [Attempt.calls_bind, Attempt.runIn_bind]
  rcases (environment.showBatches (environment.batches names)).runIn world after with
    ⟨result, last⟩
  cases result with
  | error error =>
      rw [List.append_nil]
      exact ⟨rfl, rfl⟩
  | ok packages =>
      simp only [calls_reported, List.append_nil]
      exact ⟨rfl, rfl⟩

/-- Names that are each shown by a text of their own are loaded from these texts, whatever
the size of the batches. -/
theorem runIn_load_of_shows {names : List String} {text : String → String}
    (showsNames : ShowsNames world environment.program names text)
    (answered : (world.call environment.program ["list", "--format=json"] state).result =
      .ok listed)
    (isListed : listedNames? listed = some names) :
    (environment.load.runIn world state).1 =
      .ok (names.flatMap fun name => Listing.packages (text name)) := by
  have areBatches : ∀ batch ∈ environment.batches names, batch ≠ [] ∧ batch <:+: names := by
    intro batch isBatch
    have inside := List.infix_of_mem_flatten isBatch
    rw [flatten_batches] at inside
    have nonempty := (length_of_mem_batches environment names isBatch).1
    exact ⟨List.length_pos_iff.mp nonempty, inside⟩
  rw [(runIn_load_of_listed answered isListed).2, runIn_showBatches showsNames areBatches,
    flatten_batches]

end Listed

/-- How the packages of a live environment are loaded.  A call that fails is the last one,
and its failure is the result.  The first call lists the names, and the calls after it show
them in their order, each name once, in batches of at most the given size.  If the listing
is no list of names, nothing is shown.  If each name is shown by a text of its own, the
packages are those of the texts, as they are when the names are shown one by one. -/
theorem load_in_batches (environment : LiveEnvironment) (world : World) (state : world.State) :
    let calls := environment.load.calls world state
    let result := (environment.load.runIn world state).1
    let first := world.call environment.program ["list", "--format=json"] state
    (∀ earlier call later failure, calls = earlier ++ call :: later →
      call.result = .error failure →
        later = [] ∧ result = .error (.command call.called failure)) ∧
    ∃ shown, calls = first :: shown ∧
      ∀ listed, first.result = .ok listed →
        (listedNames? listed = none →
          shown = [] ∧ result = .error (.command first.called .unexpectedOutput)) ∧
        ∀ names, listedNames? listed = some names →
          (∃ batches : List (List String),
            shown.map ProgramCall.toProgramRun = batches.map environment.showRun ∧
            (∀ batch ∈ batches, 1 ≤ batch.length ∧ batch.length ≤ max environment.batchSize 1) ∧
            batches.flatten <+: names ∧
            ∀ packages, result = .ok packages → batches.flatten = names) ∧
          ∀ text, ShowsNames world environment.program names text →
            result = .ok (names.flatMap fun name => Listing.packages (text name)) ∧
            result = (({ environment with batchSize := 1 } : LiveEnvironment).load.runIn
              world state).1 := by
  intro calls result first
  refine ⟨stopsAtFailure_load environment world state, ?_⟩
  cases answered : first.result with
  | error failure => exact ⟨[], calls_load_of_failed answered, nofun⟩
  | ok listed =>
      cases isListed : listedNames? listed with
      | none =>
          obtain ⟨alone, failed⟩ := runIn_load_of_unlisted answered isListed
          refine ⟨[], alone, ?_⟩
          rintro _ ⟨⟩
          exact ⟨fun _ => ⟨rfl, failed⟩, by simp [isListed]⟩
      | some names =>
          obtain ⟨made, loaded⟩ := runIn_load_of_listed answered isListed
          refine ⟨_, made, ?_⟩
          rintro _ ⟨⟩
          refine ⟨by simp [isListed], ?_⟩
          rw [isListed]
          rintro _ ⟨⟩
          refine ⟨?_, fun text showsNames => ?_⟩
          · let listing := Request.runProgram environment.program ["list", "--format=json"] none
            obtain ⟨batches, runs, sizes, start, whole⟩ :=
              exists_shown_batches environment names (world.answer listing state).2
            exact ⟨batches, runs, sizes, start, fun packages isLoaded =>
              whole packages (loaded.symm.trans isLoaded)⟩
          · have told := runIn_load_of_shows showsNames answered isListed
            have alone := @runIn_load_of_shows world { environment with batchSize := 1 } state
              listed names text showsNames answered isListed
            exact ⟨told, told.trans alone.symm⟩

/-- The texts of three packages, the last of which holds a line of dashes itself. -/
def sampleText : String → String
  | "six" => "Name: six\nVersion: 1.16.0\nLocation: /site\nFiles:\n  six.py"
  | "pip" => "Name: pip\nVersion: 24.0\nSummary: no files"
  | _ => "Name: flit\nVersion: 3.9.0\n---\nVersion: 0"

/-- A program that lists three names and shows any names. -/
def samplePip (_ : String) : List String → Option ProgramOutput
  | "list" :: _ =>
    let entries := ["six", "pip", "flit"].map fun name => s!"\x7b\"name\":\"{name}\"\x7d"
    some ⟨("[" ++ String.intercalate "," entries ++ "]").toUTF8, .empty, true⟩
  | "show" :: "-f" :: names =>
    some ⟨(String.intercalate "\n---\n" (names.map sampleText)).toUTF8, .empty, true⟩
  | _ => none

theorem showsNames_samplePip (world : World) :
    ShowsNames (world.withPrograms samplePip) "pip" ["six", "pip", "flit"] sampleText where
  named := by decide
  shows batch nonempty inside state := by
    have isSublist := List.mem_sublists.mpr inside.sublist
    have readBack : ∀ batch ∈ List.sublists ["six", "pip", "flit"],
        Text.decodeLossy (String.intercalate "\n---\n" (batch.map sampleText)).toUTF8 =
          String.intercalate "\n---\n" (batch.map sampleText) := by
      decide +kernel
    refine ⟨_, congrArg Except.ok (readBack batch isSublist), ?_⟩
    exact Listing.shows_intercalate (by simpa using nonempty)

theorem load_in_batches_of_samplePip :
    (({ batchSize := 2 } : LiveEnvironment).load.runIn (World.ofMachine.withPrograms samplePip)
      { files := ⟨.directory [], []⟩ }).1 =
        .ok (["six", "pip", "flit"].flatMap fun name => Listing.packages (sampleText name)) := by
  obtain ⟨-, shown, -, onwards⟩ := load_in_batches { batchSize := 2 }
    (World.ofMachine.withPrograms samplePip) { files := ⟨.directory [], []⟩ }
  have listed := (onwards _ rfl).2 ["six", "pip", "flit"] (by decide +kernel)
  exact (listed.2 sampleText (showsNames_samplePip _)).1

end Load

end LiveEnvironment

end SymbolIndex
