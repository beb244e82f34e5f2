import SymbolIndex.Proofs.Snapshot.Stages
import SymbolIndex.Proofs.Snapshot.Updating
import SymbolIndex.Text.Lossy

/-!
# Checking what an update has put in place

A check on the files that an update has left goes the way of the update: it finds
the same cases, the same documents and the same renderings, because an update
changes nothing that either of them reads.  Every golden file still holds what the
update has put there, because what comes later goes to other places.
-/

namespace SymbolIndex

open FileTree (AlikeFor ChangesIn LeadsInto leadsInto_child)

/-- Whether a check comes to the same as an update and finds nothing amiss. -/
structure SuiteOutcome.Confirms (updated checked : SuiteOutcome) : Prop where
  cases : checked.cases = updated.cases
  documents : checked.documents = updated.documents
  mismatches : checked.mismatches = []
  failures : checked.failures = updated.failures

namespace Golden

variable {path : FilePath} {snapshot : String} {machine after : Machine}

/-- A golden file that holds a snapshot matches it. -/
theorem check_of_read (read : machine.files.read path = .ok snapshot.toUTF8) :
    (check path snapshot).runOn machine = (.ok none, machine) := by
  have loaded : (load path).runOn machine = (.ok snapshot, machine) := by
    rw [load, Attempt.runOn_bind, Attempt.runOn_lift, Session.run_readText,
      FileTree.readText_of_read read]
    rfl
  rw [check, Attempt.runOn_bind, loaded]
  dsimp only
  rw [if_pos rfl]
  rfl

/-- A snapshot that was put in its place can be read there. -/
theorem read_of_write (ran : (write path snapshot).runOn machine = (.ok (), after)) :
    after.files.read path = .ok snapshot.toUTF8 := by
  have replaced := Attempt.runOn_ofSession_eq_ok.mp ran
  have read := @Session.read_run_replaceFile path snapshot.toUTF8 machine
  rw [replaced] at read
  exact read rfl

/-- Putting a snapshot in its place changes nothing but files. -/
theorem alike_of_write (ran : (write path snapshot).runOn machine = (.ok (), after)) :
    after.Alike machine := by
  have replaced := Attempt.runOn_ofSession_eq_ok.mp ran
  obtain ⟨files, same, -⟩ := Session.run_replaceFile path snapshot.toUTF8 machine
  rw [replaced] at same
  cases same
  exact ⟨rfl, rfl, rfl, rfl⟩

end Golden

namespace Suite

/-- Whether no two snapshots of a case have the same golden file, and the packages
are not read from a golden file. -/
structure Apart (suite : Suite) (tree : FileTree) : Prop where
  goldens : ∀ case ∈ suite.caseNames tree,
    ((suite.snapshotPaths tree case).map fun text => (FilePath.mk text).cleanNames).Nodup
  packages : ∀ cache, suite.environment = some cache →
    ∀ place, cache.Passes tree.workingDirectory place →
      ¬ tree.placeOf (suite.root.child "output") <+: place

/-- Whether a check on a machine changes no file and comes to the same as an update
has come to on another machine. -/
def Repeats (check : Attempt SuiteError SuiteOutcome) (twin : Machine)
    (updated : SuiteOutcome) (after : Machine) : Prop :=
  ∃ checked last, check.runOn twin = (.ok checked, last) ∧ last.files = twin.files ∧
    after.Alike last ∧ updated.Confirms checked

/-- A check that goes on repeats an update if it goes on to repeat it. -/
theorem repeats_bind {α : Type} {attempt : Attempt SuiteError α}
    {next : α → Attempt SuiteError SuiteOutcome} {value : α} {twin middle after : Machine}
    {updated : SuiteOutcome} (ran : attempt.runOn twin = (.ok value, middle))
    (sameFiles : middle.files = twin.files)
    (onwards : Repeats (next value) middle updated after) :
    Repeats (attempt >>= next) twin updated after := by
  obtain ⟨checked, last, ranOn, lastFiles, rest⟩ := onwards
  exact ⟨checked, last, Attempt.runOn_bind_eq_ok.mpr ⟨value, middle, ran, ranOn⟩,
    lastFiles.trans sameFiles, rest⟩

section Rechecks

variable {suite : Suite} {changed later : List String → Prop} {start old new : FileTree}
  {case : String} {document : Document} {documents : List Document} {machine after twin : Machine}
  {outcome updated checked : SuiteOutcome}

theorem alikeFor_cachePath (apart : suite.Apart old)
    (changes : ChangesIn suite.root "output" old new) : AlikeFor old new suite.cachePath := by
  rw [cachePath]
  cases given : suite.environment with
  | none => exact (changes.alikeFor (fun enters => leadsInto_child enters (by decide)) (by decide)).1
  | some cache =>
      have output : old.placeOf (suite.root.child "output") = old.placeOf suite.root ++ ["output"] :=
        FileTree.placeOf_child (by decide)
      refine ⟨changes.workingDirectory_eq, fun place passes => ?_⟩
      have notBelow := apart.packages cache given place passes
      rw [output] at notBelow
      rcases changes with rfl | ⟨enters, same⟩
      · exact .inl rfl
      by_cases above : place <+: old.placeOf suite.root ++ ["output"]
      · -- above the changes there are only directories
        have aboveRoot : place <+: old.placeOf suite.root := by
          rcases List.prefix_concat_iff.mp above with rfl | aboveRoot
          · exact absurd List.prefix_rfl notBelow
          · exact aboveRoot
        have directory := FileTree.isDirectory_of_above aboveRoot enters.2
        exact .inr ⟨directory, same.directory place directory⟩
      · exact .inl (same.node place above notBelow)

theorem changesIn_runDocument
    (ran : (suite.runDocument .update case outcome document).runOn machine = (.ok updated, after))
    (enters : machine.files.Enters suite.root) (insideCase : (FilePath.mk case).StaysInside)
    (inside : (FilePath.mk document.relativePath).StaysInside) :
    ChangesIn suite.root "output" machine.files after.files :=
  have keeps : Attempt.Keeps (suite.Rewritten (fun _ => True) machine.files)
      (suite.runDocument .update case outcome document) :=
    keeps_runDocument outcome enters insideCase inside trivial
  (keeps.of_run ran (.refl _ _ _)).changes

theorem rewritten_runDocuments
    (ran : (suite.runDocuments .update case outcome documents).runOn machine =
      (.ok updated, after))
    (enters : documents ≠ [] → machine.files.Enters suite.root)
    (insideCase : (FilePath.mk case).StaysInside)
    (inside : ∀ document ∈ documents, document.isOutside = false →
      (FilePath.mk document.relativePath).StaysInside) :
    suite.Rewritten (suite.DocumentPlace machine.files case documents) machine.files
      after.files :=
  (keeps_runDocuments outcome enters insideCase inside fun _ isPlace => isPlace).of_run ran
    (.refl _ _ _)

/-- A document that an update has put in its place is checked without a mismatch, if
its golden file has stayed as it is. -/
theorem runDocument_check
    (ran : (suite.runDocument .update case outcome document).runOn machine = (.ok updated, after))
    (alike : machine.Alike twin)
    (source : AlikeFor machine.files twin.files
      ((suite.inputOf case).child document.relativePath))
    (rewritten : suite.Rewritten changed after.files twin.files)
    (kept : ¬ changed (after.files.placeOf (suite.goldenOf case document)))
    (confirms : outcome.Confirms checked) :
    Repeats (suite.runDocument .check case checked document) twin updated after := by
  obtain ⟨snapshot, rendered, render, ran⟩ := Attempt.runOn_bind_eq_ok.mp ran
  obtain ⟨_, written, write, ran⟩ := Attempt.runOn_bind_eq_ok.mp ran
  obtain ⟨_, logged, log, ran⟩ := Attempt.runOn_bind_eq_ok.mp ran
  have write := Attempt.runOn_mapError_eq_ok.mp write
  rw [Attempt.runOn_lift, Session.run_log] at log
  cases log
  cases ran
  obtain ⟨last, renderTwin, -, sameFiles, alikeRendered⟩ :=
    (agrees_snapshot source).runOn_eq_ok rfl rfl alike render
  have read : last.files.read (suite.goldenOf case document) = .ok snapshot.toUTF8 := by
    rw [sameFiles]
    exact FileTree.read_of_persists (Golden.read_of_write write)
      rewritten.changes.workingDirectory_eq rewritten.changes.isDirectory
      (rewritten.kept _ kept)
  have onwards := (Golden.alike_of_write write).trans alikeRendered
  refine ⟨{ checked with documents := checked.documents + 1 }, last, ?_, sameFiles, ?_, ?_⟩
  · refine Attempt.runOn_bind_eq_ok.mpr ⟨snapshot, last, renderTwin, ?_⟩
    refine Attempt.runOn_bind_eq_ok.mpr ⟨none, last, ?_, ?_⟩
    · exact Attempt.runOn_mapError_eq_ok.mpr (Golden.check_of_read read)
    · simp
  · exact ⟨onwards.programs, onwards.environment, onwards.processors, onwards.runs⟩
  · exact ⟨confirms.cases, congrArg (· + 1) confirms.documents, confirms.mismatches,
      confirms.failures⟩

/-- A document whose relative path is not that of another one has a golden file of its
own. -/
theorem not_documentPlace {tree : FileTree}
    (isInside : (FilePath.mk document.relativePath).StaysInside)
    (inside : ∀ other ∈ documents, other.isOutside = false →
      (FilePath.mk other.relativePath).StaysInside)
    (fresh : (FilePath.mk document.relativePath).cleanNames ∉
      (documents.filter (!·.isOutside)).map fun other =>
        (FilePath.mk other.relativePath).cleanNames) :
    ¬ suite.DocumentPlace tree case documents
      (tree.placeOf (suite.goldenOf case document)) := by
  rintro ⟨other, member, notOutside, same⟩
  rw [placeOf_goldenOf isInside, placeOf_goldenOf (inside other member notOutside)] at same
  have sameNames := List.append_cancel_left same
  exact fresh (List.mem_map.mpr
    ⟨other, List.mem_filter.mpr ⟨member, by simp [notOutside]⟩, sameNames.symm⟩)

/-- The documents of a case that an update has put in their places are checked
without a mismatch, if their golden files are different and stay as they are. -/
theorem runDocuments_check
    (ran : (suite.runDocuments .update case outcome documents).runOn machine =
      (.ok updated, after))
    (alike : machine.Alike twin) (enters : documents ≠ [] → machine.files.Enters suite.root)
    (insideCase : (FilePath.mk case).StaysInside)
    (inside : ∀ document ∈ documents, document.isOutside = false →
      (FilePath.mk document.relativePath).StaysInside)
    (rewritten : suite.Rewritten later after.files twin.files)
    (distinct : ((documents.filter (!·.isOutside)).map fun document =>
      (FilePath.mk document.relativePath).cleanNames).Nodup)
    (kept : ∀ document ∈ documents, document.isOutside = false →
      ¬ later (machine.files.placeOf (suite.goldenOf case document)))
    (confirms : outcome.Confirms checked) :
    Repeats (suite.runDocuments .check case checked documents) twin updated after := by
  induction documents generalizing outcome checked machine twin with
  | nil =>
      cases ran
      exact ⟨checked, twin, rfl, rfl, alike, confirms⟩
  | cons document rest ih =>
      have insideRest (other : Document) (member : other ∈ rest) :=
        inside other (List.mem_cons_of_mem document member)
      have keptRest (other : Document) (member : other ∈ rest) :=
        kept other (List.mem_cons_of_mem document member)
      have entersRoot := enters (List.cons_ne_nil _ _)
      rw [runDocuments] at ran ⊢
      by_cases outside : document.isOutside = true
      · rw [if_pos outside] at ran ⊢
        rw [List.filter_cons_of_neg (by simp [outside])] at distinct
        obtain ⟨_, logged, log, ran⟩ := Attempt.runOn_bind_eq_ok.mp ran
        obtain ⟨loggedTwin, logTwin, sameFiles, sameTwin, alikeLogged⟩ :=
          (Attempt.agrees_log _ _ _).runOn_eq_ok rfl rfl alike log
        rw [← sameTwin] at rewritten
        rw [← sameFiles] at keptRest entersRoot
        exact repeats_bind logTwin sameTwin
          (ih ran alikeLogged (fun _ => entersRoot) insideRest rewritten distinct keptRest confirms)
      · have notOutside : document.isOutside = false := by simpa using outside
        have isInside := inside document (List.mem_cons_self ..) notOutside
        rw [if_neg outside] at ran ⊢
        rw [List.filter_cons_of_pos (by simp [notOutside]), List.map_cons, List.nodup_cons]
          at distinct
        obtain ⟨outcomeFirst, middle, first, ran⟩ := Attempt.runOn_bind_eq_ok.mp ran
        have step := changesIn_runDocument first entersRoot insideCase isInside
        have entersMiddle := step.enters entersRoot
        have onwards : suite.Rewritten
            (fun place => suite.DocumentPlace middle.files case rest place ∨ later place)
            middle.files twin.files :=
          ((rewritten_runDocuments ran (fun _ => entersMiddle) insideCase insideRest).mono
            fun _ => .inl).trans (rewritten.mono fun _ => .inr)
        have source : AlikeFor machine.files twin.files
            ((suite.inputOf case).child document.relativePath) :=
          ((step.trans onwards.changes).alikeFor (fun enters =>
            ((leadsInto_child enters (by decide)).child insideCase).child isInside)
            (by decide)).1
        have notChanged : ¬ (suite.DocumentPlace middle.files case rest
              (middle.files.placeOf (suite.goldenOf case document)) ∨
            later (middle.files.placeOf (suite.goldenOf case document))) := by
          rintro (isOfRest | isLater)
          · exact not_documentPlace isInside insideRest distinct.1 isOfRest
          · rw [step.placeOf_eq] at isLater
            exact kept document (List.mem_cons_self ..) notOutside isLater
        obtain ⟨checkedFirst, middleTwin, firstTwin, sameTwin, alikeMiddle, confirmsFirst⟩ :=
          runDocument_check first alike source onwards notChanged confirms
        rw [← sameTwin] at rewritten
        have keptMiddle (other : Document) (member : other ∈ rest)
            (otherNotOutside : other.isOutside = false) :
            ¬ later (middle.files.placeOf (suite.goldenOf case other)) := by
          rw [step.placeOf_eq]
          exact keptRest other member otherNotOutside
        exact repeats_bind firstTwin sameTwin
          (ih ran alikeMiddle (fun _ => entersMiddle) insideRest rewritten distinct.2 keptMiddle
            confirmsFirst)

/-- A case that an update has gone through is checked without a mismatch. -/
theorem visitCase_check {identities : Option CaseIdentities} {registry : Registry}
    (ran : (suite.visitCase .update identities registry outcome case).runOn machine =
      (.ok updated, after))
    (alike : machine.Alike twin) (proper : start.top.Proper)
    (known : ChangesIn suite.root "output" start machine.files)
    (insideCase : (FilePath.mk case).StaysInside)
    (inside : ∀ text ∈ suite.snapshotPaths start case, (FilePath.mk text).StaysInside)
    (distinct : ((suite.snapshotPaths start case).map fun text =>
      (FilePath.mk text).cleanNames).Nodup)
    (rewritten : suite.Rewritten later after.files twin.files)
    (kept : ∀ place, suite.GoldenPlace start case place → ¬ later place)
    (confirms : outcome.Confirms checked) :
    Repeats (suite.visitCase .check identities registry checked case) twin updated after := by
  obtain ⟨report, assembled, assemble, ran⟩ := Attempt.runOn_bind_eq_ok.mp ran
  obtain ⟨outcomeLast, last, documents, ran⟩ := Attempt.runOn_bind_eq_ok.mp ran
  cases ran
  obtain ⟨-, -, sameFiles, -⟩ :=
    (agrees_assemble (.refl suite machine.files case) identities registry).runOn_eq_ok rfl rfl
      (.refl machine) assemble
  have isSnapshot := mem_snapshotPaths_of_assemble proper insideCase known assemble
  have enters := enters_of_assemble insideCase assemble
  rw [← sameFiles] at enters
  have insideDocuments (document : Document) (member : document ∈ report.index.documents)
      (notOutside : document.isOutside = false) :=
    inside _ (isSnapshot document member notOutside)
  have changes : ChangesIn suite.root "output" machine.files twin.files := by
    rw [← sameFiles]
    exact (rewritten_runDocuments documents enters insideCase insideDocuments).changes.trans
      rewritten.changes
  obtain ⟨assembledTwin, assembleTwin, -, sameTwin, alikeAssembled⟩ :=
    (agrees_assemble (caseAlike_of_changesIn proper insideCase known changes) identities
      registry).runOn_eq_ok rfl rfl alike assemble
  have distinctDocuments : ((report.index.documents.filter (!·.isOutside)).map fun document =>
      (FilePath.mk document.relativePath).cleanNames).Nodup := by
    have part := sublist_snapshotPaths_of_assemble proper insideCase known assemble
    have names := distinct.sublist (part.map fun text => (FilePath.mk text).cleanNames)
    rwa [List.map_map] at names
  have keptDocuments (document : Document) (member : document ∈ report.index.documents)
      (notOutside : document.isOutside = false) :
      ¬ later (assembled.files.placeOf (suite.goldenOf case document)) := by
    have isText := isSnapshot document member notOutside
    apply kept
    refine ⟨document.relativePath, isText, ?_⟩
    rw [sameFiles, known.placeOf_eq, placeOf_goldenOf (inside _ isText)]
  refine repeats_bind assembleTwin sameTwin ?_
  rw [← sameTwin] at rewritten
  obtain ⟨checkedLast, lastTwin, documentsTwin, lastFiles, alikeLast, confirmsLast⟩ :=
    runDocuments_check documents alikeAssembled enters insideCase insideDocuments rewritten
      distinctDocuments keptDocuments
      (⟨confirms.cases, confirms.documents, confirms.mismatches,
        congrArg (· ++ report.failures) confirms.failures⟩ : SuiteOutcome.Confirms
          { outcome with failures := outcome.failures ++ report.failures }
          { checked with failures := checked.failures ++ report.failures })
  refine repeats_bind documentsTwin lastFiles ⟨_, _, rfl, rfl, alikeLast, ?_⟩
  exact ⟨congrArg (· + 1) confirmsLast.cases, confirmsLast.documents, confirmsLast.mismatches,
    confirmsLast.failures⟩

/-- The cases that an update has gone through are checked without a mismatch on the
files that it has left. -/
theorem visitCases_check {identities : Option CaseIdentities} {registry : Registry}
    {cases : List String}
    (ran : (suite.visitCases .update identities registry outcome cases).runOn machine =
      (.ok updated, after))
    (alike : machine.Alike twin) (sameFiles : twin.files = after.files)
    (proper : start.top.Proper) (known : ChangesIn suite.root "output" start machine.files)
    (insideCase : ∀ case ∈ cases, (FilePath.mk case).StaysInside)
    (inside : ∀ case ∈ cases, ∀ text ∈ suite.snapshotPaths start case,
      (FilePath.mk text).StaysInside)
    (distinct : ∀ case ∈ cases, ((suite.snapshotPaths start case).map fun text =>
      (FilePath.mk text).cleanNames).Nodup)
    (apart : cases.Pairwise fun case other => ∀ place, suite.GoldenPlace start case place →
      ¬ suite.GoldenPlace start other place)
    (confirms : outcome.Confirms checked) :
    Repeats (suite.visitCases .check identities registry checked cases) twin updated after := by
  induction cases generalizing outcome checked machine twin with
  | nil =>
      cases ran
      exact ⟨checked, twin, rfl, rfl, alike, confirms⟩
  | cons case rest ih =>
      rw [List.pairwise_cons] at apart
      have insideRest (other : String) (member : other ∈ rest) :=
        insideCase other (List.mem_cons_of_mem case member)
      have textsRest (other : String) (member : other ∈ rest) :=
        inside other (List.mem_cons_of_mem case member)
      have insideHere := insideCase case (List.mem_cons_self ..)
      have textsHere := inside case (List.mem_cons_self ..)
      obtain ⟨outcomeFirst, middle, first, ran⟩ := Attempt.runOn_bind_eq_ok.mp ran
      have step := (keeps_visitCase outcome proper known insideHere textsHere
        fun _ isPlace => isPlace).of_run first (.refl _ _ _)
      have knownMiddle := known.trans step.changes
      have onwards := (keeps_visitCases outcomeFirst proper knownMiddle insideRest textsRest
        fun other member place isPlace =>
          (⟨other, member, isPlace⟩ : ∃ other ∈ rest, suite.GoldenPlace start other place)).of_run
        ran (.refl _ _ _)
      rw [← sameFiles] at onwards
      obtain ⟨checkedFirst, middleTwin, firstTwin, sameTwin, alikeMiddle, confirmsFirst⟩ :=
        visitCase_check first alike proper known insideHere textsHere
          (distinct case (List.mem_cons_self ..)) onwards
          (fun place isPlace ⟨other, member, isOther⟩ =>
            apart.1 other member place isPlace isOther) confirms
      exact repeats_bind firstTwin sameTwin
        (ih ran alikeMiddle (sameTwin.trans sameFiles) knownMiddle insideRest textsRest
          (fun other member => distinct other (List.mem_cons_of_mem case member)) apart.2
          confirmsFirst)

/-- Different cases have different golden files. -/
theorem pairwise_goldenPlace (proper : old.top.Proper) :
    (suite.caseNames old).Pairwise fun case other => ∀ place, suite.GoldenPlace old case place →
      ¬ suite.GoldenPlace old other place := by
  cases only : suite.only with
  | some case =>
      rw [caseNames_of_only only]
      exact List.pairwise_singleton ..
  | none =>
      obtain ⟨areNames, distinct⟩ := caseNames_of_listed proper only
      have outputOf (case : String) (isCase : case ∈ suite.caseNames old) :
          old.placeOf (suite.outputOf case) =
            old.placeOf (suite.root.child "output") ++ [case] := by
        obtain ⟨inside, clean⟩ := FilePath.staysInside_of_isName (areNames case isCase)
        rw [Suite.outputOf, FileTree.placeOf_child inside, clean]
      refine distinct.imp_of_mem fun isCase isOther differ place isPlace isOtherPlace => ?_
      obtain ⟨text, -, rfl⟩ := isPlace
      obtain ⟨otherText, -, same⟩ := isOtherPlace
      rw [outputOf _ isCase, outputOf _ isOther, List.append_assoc, List.append_assoc] at same
      exact differ (List.cons.inj (List.append_cancel_left same)).1

/-- A check repeats an update of a tidy suite without shared golden files. -/
theorem run_check (tidy : suite.Tidy machine.files) (apart : suite.Apart machine.files)
    (ran : (suite.run .update).runOn machine = (.ok updated, after)) (alike : machine.Alike twin)
    (sameFiles : twin.files = after.files) : Repeats (suite.run .check) twin updated after := by
  have changes := (rewritten_run tidy).changes
  rw [ran, ← sameFiles] at changes
  obtain ⟨identities, identified, identify, ran⟩ := Attempt.runOn_bind_eq_ok.mp ran
  obtain ⟨registry, registered, register, ran⟩ := Attempt.runOn_bind_eq_ok.mp ran
  obtain ⟨cases, listed, list, ran⟩ := Attempt.runOn_bind_eq_ok.mp ran
  obtain ⟨outcome, visited, visit, ran⟩ := Attempt.runOn_bind_eq_ok.mp ran
  obtain ⟨_, logged, log, ran⟩ := Attempt.runOn_bind_eq_ok.mp ran
  rw [Attempt.runOn_lift, Session.run_log] at log
  cases log
  cases ran
  have info : AlikeFor machine.files twin.files (suite.root.child "packageInfo.json") :=
    (changes.alikeFor (fun enters => leadsInto_child enters (by decide)) (by decide)).1
  obtain ⟨identifiedTwin, identifyTwin, files, filesTwin, alike⟩ :=
    (agrees_identities info).runOn_eq_ok rfl rfl alike identify
  obtain ⟨registeredTwin, registerTwin, files, filesRegistered, alike⟩ :=
    (agrees_registry (alikeFor_cachePath apart changes)).runOn_eq_ok files filesTwin alike register
  have isListed := cases_eq_ok (congrArg Prod.fst list)
  rw [files] at isListed
  obtain ⟨listedTwin, listTwin, files, filesListed, alike⟩ :=
    (agrees_cases (list_input_eq changes)).runOn_eq_ok files filesRegistered alike list
  rw [isListed] at visit listTwin
  have repeats := visitCases_check visit alike (filesListed.trans sameFiles) tidy.proper
    (.inl files) (fun _ isCase => staysInside_of_mem_caseNames tidy isCase) tidy.inside
    apart.goldens (pairwise_goldenPlace tidy.proper)
    (⟨rfl, rfl, rfl, rfl⟩ : SuiteOutcome.Confirms {} {})
  obtain ⟨checked, visitedTwin, visitTwin, visitedFiles, alikeVisited, confirms⟩ := repeats
  refine repeats_bind identifyTwin filesTwin ?_
  refine repeats_bind registerTwin (filesRegistered.trans filesTwin.symm) ?_
  refine repeats_bind listTwin (filesListed.trans filesRegistered.symm) ?_
  refine repeats_bind visitTwin visitedFiles ⟨checked, _, rfl, rfl, ?_, confirms⟩
  exact ⟨alikeVisited.programs, alikeVisited.environment, alikeVisited.processors,
    alikeVisited.runs⟩

end Rechecks

/-- After an update of a tidy suite without shared golden files that has succeeded, a
check on the files that it has left succeeds as well.  It finds no mismatch, as many
cases and documents as the update, and the same failures. -/
theorem run_check_of_run_update {suite : Suite} {machine after : Machine}
    {updated : SuiteOutcome} (tidy : suite.Tidy machine.files)
    (apart : suite.Apart machine.files)
    (ran : (suite.run .update).runOn machine = (.ok updated, after)) :
    ∃ checked last,
      (suite.run .check).runOn { machine with files := after.files } = (.ok checked, last) ∧
        checked.mismatches = [] ∧ checked.cases = updated.cases ∧
        checked.documents = updated.documents ∧ checked.failures = updated.failures := by
  have alike : machine.Alike { machine with files := after.files } := ⟨rfl, rfl, rfl, rfl⟩
  obtain ⟨checked, last, check, -, -, confirms⟩ := run_check tidy apart ran alike rfl
  exact ⟨checked, last, check, confirms.mismatches, confirms.cases, confirms.documents,
    confirms.failures⟩

/-- An update of the sample puts two snapshots in their places, and a check finds
both there. -/
theorem run_check_of_run_update_sample :
    let machine := sampleMachine [("a.json", "[\"a\"]"), ("b.json", "[\"b\"]")]
    let after := ((sampleSuite.run .update).runOn machine).2
    sampleSuite.Tidy machine.files ∧ sampleSuite.Apart machine.files ∧
      (sampleSuite.run .update).runOn machine =
        (.ok { cases := 1, documents := 2, written := 2 }, after) ∧
      ∃ checked last,
        (sampleSuite.run .check).runOn { machine with files := after.files } =
            (.ok checked, last) ∧
          checked.mismatches = [] ∧ checked.cases = 1 ∧ checked.documents = 2 ∧
          checked.failures = [] := by
  intro machine after
  have sampled : Sampled machine.files :=
    ⟨by decide +kernel, by decide +kernel, by decide +kernel, by decide +kernel⟩
  have texts : sampleSuite.snapshotPaths machine.files "c" = ["a", "b"] := by
    rw [snapshotPaths, relativePaths_of_ordered sampled.ordered]
    decide +kernel
  have names : sampleSuite.caseNames machine.files = ["c"] := by
    decide +kernel
  have tidy : sampleSuite.Tidy machine.files := by
    refine ⟨proper_sampleMachine (by decide) (by decide), by decide, ?_⟩
    simp only [names, List.forall_mem_singleton, texts]
    decide
  have apart : sampleSuite.Apart machine.files := by
    refine ⟨?_, fun cache given => ?_⟩
    · simp only [names, List.forall_mem_singleton, texts]
      decide +kernel
    · cases given
  have visited : ((visitSample .update machine.files).runOn machine).1 =
      .ok { cases := 1, documents := 2, written := 2 } := by
    decide +kernel
  have update : Attempt.SameOn machine (sampleSuite.run .update)
      (visitSample .update machine.files) :=
    sameOn_run_sample sampled .update
  rw [← update.1] at visited
  have ran : (sampleSuite.run .update).runOn machine =
      (.ok { cases := 1, documents := 2, written := 2 }, after) :=
    Attempt.runOn_eq_mk visited
  exact ⟨tidy, apart, ran, run_check_of_run_update tidy apart ran⟩

/-- Two documents of one relative path have one golden file.  An update puts the
second snapshot in the place of the first, and a check finds that the first one does
not match. -/
theorem run_check_of_shared_golden :
    let machine := sampleMachine [("a.json", "[\"a\",\"python\",[[1,\"x\",\"term\"]],[[1,[0,0,1]]]]"),
      ("b.json", "[\"a\"]")]
    let after := ((sampleSuite.run .update).runOn machine).2
    ((sampleSuite.run .update).runOn machine).1 =
        .ok { cases := 1, documents := 2, written := 2 } ∧
      ((sampleSuite.run .check).runOn { machine with files := after.files }).1.toOption.map
        (·.mismatches.length) = some 1 := by
  intro machine after
  have sampled : Sampled machine.files :=
    ⟨by decide +kernel, by decide +kernel, by decide +kernel, by decide +kernel⟩
  have update : Attempt.SameOn machine (sampleSuite.run .update)
      (visitSample .update machine.files) :=
    sameOn_run_sample sampled .update
  have updated : ((visitSample .update machine.files).runOn machine).1 =
      .ok { cases := 1, documents := 2, written := 2 } := by
    decide +kernel
  rw [← update.1] at updated
  let left := ((visitSample .update machine.files).runOn machine).2.files
  have files : after.files = left := update.2
  have sampledLeft : Sampled left :=
    ⟨by decide +kernel, by decide +kernel, by decide +kernel, by decide +kernel⟩
  have check : Attempt.SameOn { machine with files := left } (sampleSuite.run .check)
      (visitSample .check left) :=
    sameOn_run_sample sampledLeft .check
  have checked : ((visitSample .check left).runOn { machine with files := left }).1.toOption.map
      (·.mismatches.length) = some 1 := by
    decide +kernel
  rw [← check.1] at checked
  rw [files]
  exact ⟨updated, checked⟩

end Suite

end SymbolIndex
