import SymbolIndex.CommandLine.Run
import SymbolIndex.Proofs.Machine.Replacing
import SymbolIndex.Proofs.Snapshot.Stages

/-!
# What an update changes

An update replaces files one after the other.  As long as the relative paths of
the documents keep to the directories that they are read from, every file that it
changes is the golden file of one of them, and nothing changes outside of
`output`.
-/

namespace SymbolIndex

open FileTree (AlikeFor ChangesIn LeadsInto leadsInto_child)

namespace Suite

/-- Whether some files come from others by changes to the files at some places
below `output`. -/
structure Rewritten (suite : Suite) (changed : List String → Prop) (old new : FileTree) :
    Prop where
  changes : ChangesIn suite.root "output" old new
  kept : ∀ place, ¬ changed place → new.fileAt place = old.fileAt place

namespace Rewritten

variable {suite : Suite} {changed others : List String → Prop} {old middle new : FileTree}

theorem refl (suite : Suite) (changed : List String → Prop) (tree : FileTree) :
    suite.Rewritten changed tree tree :=
  ⟨.refl _ _ _, fun _ _ => rfl⟩

theorem trans (first : suite.Rewritten changed old middle)
    (second : suite.Rewritten changed middle new) : suite.Rewritten changed old new where
  changes := first.changes.trans second.changes
  kept place notChanged := (second.kept place notChanged).trans (first.kept place notChanged)

theorem mono (rewritten : suite.Rewritten changed old new)
    (more : ∀ place, changed place → others place) : suite.Rewritten others old new where
  changes := rewritten.changes
  kept place notChanged := rewritten.kept place fun isChanged => notChanged (more place isChanged)

end Rewritten

section Updates

variable {suite : Suite} {changed : List String → Prop} {start base tree : FileTree}
  {case : String} {document : Document} {documents : List Document}

/-- A golden file of a suite that is in a directory belongs below `output`. -/
theorem leadsInto_goldenOf (enters : tree.Enters suite.root)
    (insideCase : (FilePath.mk case).StaysInside)
    (inside : (FilePath.mk document.relativePath).StaysInside) :
    LeadsInto tree suite.root "output" (suite.goldenOf case document) :=
  ((leadsInto_child enters (by decide)).child insideCase).child inside

theorem placeOf_goldenOf (inside : (FilePath.mk document.relativePath).StaysInside) :
    tree.placeOf (suite.goldenOf case document) =
      tree.placeOf (suite.outputOf case) ++ (FilePath.mk document.relativePath).cleanNames :=
  FileTree.placeOf_child inside

/-- A snapshot that is put in its place changes the golden file there. -/
theorem keeps_write {snapshot : String} (enters : base.Enters suite.root)
    (insideCase : (FilePath.mk case).StaysInside)
    (inside : (FilePath.mk document.relativePath).StaysInside)
    (isChanged : changed (base.placeOf (suite.goldenOf case document))) :
    Attempt.Keeps (suite.Rewritten changed base)
      (Golden.write (suite.goldenOf case document) snapshot) := by
  intro machine known
  rw [Golden.write, Attempt.runOn_ofSession]
  dsimp only
  have entersNow := known.changes.enters enters
  have leads := leadsInto_goldenOf entersNow insideCase inside
  refine known.trans ⟨.inr ⟨entersNow, ?_⟩, fun place notChanged => ?_⟩
  · exact Session.sameOutside_run_replaceFile _ machine leads.passed leads.inside
  · refine Session.fileAt_run_replaceFile _ _ machine ?_
    rintro rfl
    rw [known.changes.placeOf_eq] at notChanged
    exact notChanged isChanged

theorem keeps_runDocument (outcome : SuiteOutcome) (enters : base.Enters suite.root)
    (insideCase : (FilePath.mk case).StaysInside)
    (inside : (FilePath.mk document.relativePath).StaysInside)
    (isChanged : changed (base.placeOf (suite.goldenOf case document))) :
    Attempt.Keeps (suite.Rewritten changed base)
      (suite.runDocument .update case outcome document) := by
  refine Attempt.keeps_bind
    (Attempt.keeps_of_agrees fun tree => agrees_snapshot (.refl tree _)) fun _ _ _ _ _ => ?_
  refine Attempt.keeps_bind
    (Attempt.keeps_mapError _ (keeps_write enters insideCase inside isChanged)) fun _ _ _ _ _ => ?_
  exact Attempt.keeps_bind (Attempt.keeps_log _ _ _) fun _ _ _ _ _ => Attempt.keeps_pure _

/-- Whether a place is that of the golden file of one of some documents. -/
def DocumentPlace (suite : Suite) (tree : FileTree) (case : String) (documents : List Document)
    (place : List String) : Prop :=
  ∃ document ∈ documents, document.isOutside = false ∧
    place = tree.placeOf (suite.goldenOf case document)

/-- The documents of a case change only their golden files. -/
theorem keeps_runDocuments (outcome : SuiteOutcome)
    (enters : documents ≠ [] → base.Enters suite.root)
    (insideCase : (FilePath.mk case).StaysInside)
    (inside : ∀ document ∈ documents, document.isOutside = false →
      (FilePath.mk document.relativePath).StaysInside)
    (isChanged : ∀ place, suite.DocumentPlace base case documents place → changed place) :
    Attempt.Keeps (suite.Rewritten changed base)
      (suite.runDocuments .update case outcome documents) := by
  induction documents generalizing outcome with
  | nil => exact Attempt.keeps_pure _
  | cons document rest ih =>
      have entersBase := enters (List.cons_ne_nil _ _)
      have others (outcome : SuiteOutcome) := ih outcome (fun _ => entersBase)
        (fun other member => inside other (List.mem_cons_of_mem _ member))
        (fun place ⟨other, member, isPlace⟩ =>
          isChanged place ⟨other, List.mem_cons_of_mem _ member, isPlace⟩)
      rw [runDocuments]
      split
      · exact Attempt.keeps_bind (Attempt.keeps_log _ _ _) fun _ _ _ _ _ => others outcome
      · rename_i notOutside
        have notOutside : document.isOutside = false := by simpa using notOutside
        refine Attempt.keeps_bind ?_ fun _ _ _ _ _ => others _
        exact keeps_runDocument outcome entersBase insideCase
          (inside document (List.mem_cons_self ..) notOutside)
          (isChanged _ ⟨document, List.mem_cons_self .., notOutside, rfl⟩)

/-- Whether a place is that of a golden file that a case may have. -/
def GoldenPlace (suite : Suite) (tree : FileTree) (case : String) (place : List String) : Prop :=
  ∃ text ∈ suite.snapshotPaths tree case,
    place = tree.placeOf (suite.outputOf case) ++ (FilePath.mk text).cleanNames

theorem keeps_visitCase {identities : Option CaseIdentities} {registry : Registry}
    (outcome : SuiteOutcome) (proper : start.top.Proper)
    (known : ChangesIn suite.root "output" start base)
    (insideCase : (FilePath.mk case).StaysInside)
    (inside : ∀ text ∈ suite.snapshotPaths start case, (FilePath.mk text).StaysInside)
    (isChanged : ∀ place, suite.GoldenPlace start case place → changed place) :
    Attempt.Keeps (suite.Rewritten changed base)
      (suite.visitCase .update identities registry outcome case) := by
  refine Attempt.keeps_bind
    (Attempt.keeps_of_agrees fun tree => agrees_assemble (.refl suite tree case) _ _)
    fun machine report after rewritten ran => ?_
  have isSnapshot :=
    mem_snapshotPaths_of_assemble proper insideCase (known.trans rewritten.changes) ran
  refine Attempt.keeps_bind (keeps_runDocuments _ (fun nonempty => ?_) insideCase
    (fun document member notOutside => ?_) (fun place isPlace => ?_))
    fun _ _ _ _ _ => Attempt.keeps_pure _
  · exact rewritten.changes.enters_old (enters_of_assemble insideCase ran nonempty)
  · exact inside _ (isSnapshot document member notOutside)
  · obtain ⟨document, member, notOutside, rfl⟩ := isPlace
    have isText := isSnapshot document member notOutside
    apply isChanged
    refine ⟨document.relativePath, isText, ?_⟩
    rw [placeOf_goldenOf (inside _ isText), known.placeOf_eq]

theorem keeps_visitCases {identities : Option CaseIdentities} {registry : Registry}
    {cases : List String} (outcome : SuiteOutcome) (proper : start.top.Proper)
    (known : ChangesIn suite.root "output" start base)
    (insideCase : ∀ case ∈ cases, (FilePath.mk case).StaysInside)
    (inside : ∀ case ∈ cases, ∀ text ∈ suite.snapshotPaths start case,
      (FilePath.mk text).StaysInside)
    (isChanged : ∀ case ∈ cases, ∀ place, suite.GoldenPlace start case place → changed place) :
    Attempt.Keeps (suite.Rewritten changed base)
      (suite.visitCases .update identities registry outcome cases) := by
  induction cases generalizing outcome with
  | nil => exact Attempt.keeps_pure _
  | cons case rest ih =>
      refine Attempt.keeps_bind ?_ fun _ outcome _ _ _ => ih outcome
        (fun other member => insideCase other (List.mem_cons_of_mem _ member))
        (fun other member => inside other (List.mem_cons_of_mem _ member))
        (fun other member => isChanged other (List.mem_cons_of_mem _ member))
      exact keeps_visitCase outcome proper known (insideCase case (List.mem_cons_self ..))
        (inside case (List.mem_cons_self ..)) (isChanged case (List.mem_cons_self ..))

/-- An update of a tidy suite changes only golden files of its cases. -/
theorem rewritten_run {machine : Machine} (tidy : suite.Tidy machine.files) :
    suite.Rewritten
      (fun place => ∃ case ∈ suite.caseNames machine.files,
        suite.GoldenPlace machine.files case place)
      machine.files ((suite.run .update).runOn machine).2.files := by
  refine Attempt.keeps_bind
    (Attempt.keeps_of_agrees fun tree => agrees_identities (.refl tree _))
    (fun _ identities _ _ _ => ?_) machine (.refl _ _ _)
  refine Attempt.keeps_bind
    (Attempt.keeps_of_agrees fun tree => agrees_registry (.refl tree _))
    fun _ registry _ _ _ => ?_
  refine Attempt.keeps_bind (Attempt.keeps_of_agrees fun _ => agrees_cases rfl)
    fun before cases _ rewritten ran => ?_
  have same : cases = suite.caseNames machine.files := by
    rw [cases_eq_ok (congrArg Prod.fst ran), caseNames_eq rewritten.changes]
  refine Attempt.keeps_bind ?_ fun _ _ _ _ _ =>
    Attempt.keeps_bind (Attempt.keeps_log _ _ _) fun _ _ _ _ _ => Attempt.keeps_pure _
  rw [same]
  exact keeps_visitCases {} tidy.proper (.refl _ _ _)
    (fun case isCase => staysInside_of_mem_caseNames tidy isCase) tidy.inside
    fun case isCase place isPlace => ⟨case, isCase, isPlace⟩

end Updates

end Suite

/-- Whether two trees with one working directory differ at most in the files at some
places. -/
structure FileTree.DiffersAt (changed : List String → Prop) (old new : FileTree) : Prop where
  workingDirectory : new.workingDirectory = old.workingDirectory
  kept : ∀ place, ¬ changed place → new.fileAt place = old.fileAt place

namespace CommandLine

/-- Renderings that are written into a directory change only files at the places
that the relative paths of their documents name below it. -/
theorem keeps_writeRenderings {root dir : FilePath} {documents : List Document}
    {base : FileTree} {changed : List String → Prop}
    (inside : ∀ document ∈ documents, document.isOutside = false →
      (FilePath.mk document.relativePath).StaysInside)
    (isChanged : ∀ document ∈ documents, document.isOutside = false →
      changed (base.placeOf dir ++ (FilePath.mk document.relativePath).cleanNames)) :
    Attempt.Keeps (FileTree.DiffersAt changed base) (writeRenderings root dir documents) := by
  induction documents with
  | nil => exact Attempt.keeps_pure _
  | cons document rest ih =>
      have others := ih (fun other member => inside other (List.mem_cons_of_mem _ member))
        (fun other member => isChanged other (List.mem_cons_of_mem _ member))
      rw [writeRenderings]
      split
      · exact others
      rename_i notOutside
      have notOutside : document.isOutside = false := by simpa using notOutside
      have isInside := inside document (List.mem_cons_self ..) notOutside
      refine Attempt.keeps_bind (Attempt.keeps_of_agrees fun tree => ?_) fun _ _ _ _ _ => ?_
      · exact Attempt.agrees_ofSession _ (Session.agrees_readText rfl)
      refine Attempt.keeps_bind (Attempt.keeps_mapError _ fun machine known => ?_)
        fun _ _ _ _ _ => Attempt.keeps_bind others fun _ _ _ _ _ => Attempt.keeps_pure _
      rw [Golden.write, Attempt.runOn_ofSession]
      dsimp only
      refine ⟨?_, fun place notChanged => ?_⟩
      · rw [Session.workingDirectory_run_replaceFile, known.workingDirectory]
      · rw [Session.fileAt_run_replaceFile _ _ machine, known.kept place notChanged]
        rintro rfl
        rw [FileTree.placeOf_congr known.workingDirectory, FileTree.placeOf_child isInside]
          at notChanged
        exact notChanged (isChanged document (List.mem_cons_self ..) notOutside)

/-- Renderings that are written into a directory change only files of their
documents. -/
theorem differsAt_writeRenderings {root dir : FilePath} {documents : List Document}
    (inside : ∀ document ∈ documents, document.isOutside = false →
      (FilePath.mk document.relativePath).StaysInside) (machine : Machine) :
    FileTree.DiffersAt
      (fun place => ∃ document ∈ documents, document.isOutside = false ∧
        place = machine.files.placeOf dir ++ (FilePath.mk document.relativePath).cleanNames)
      machine.files ((writeRenderings root dir documents).runOn machine).2.files :=
  keeps_writeRenderings inside
    (fun document member notOutside => ⟨document, member, notOutside, rfl⟩) machine
    ⟨rfl, fun _ _ => rfl⟩

end CommandLine

/-- A file that an update of a tidy suite changes is the golden file of a document
of one of its cases, and lies below the output of this case.  A file that is
changed when renderings are written lies below the directory that they are
written into, if no document leads out of it. -/
theorem changed_files_inside (suite : Suite) (machine : Machine)
    (tidy : suite.Tidy machine.files) (root dir : FilePath) (documents : List Document)
    (inside : ∀ document ∈ documents, document.isOutside = false →
      (FilePath.mk document.relativePath).StaysInside) :
    (∀ place, ((suite.run .update).runOn machine).2.files.fileAt place ≠
        machine.files.fileAt place →
      ∃ case ∈ suite.caseNames machine.files,
        ∃ text ∈ suite.snapshotPaths machine.files case,
          place = machine.files.placeOf (suite.outputOf case) ++ (FilePath.mk text).cleanNames) ∧
    (∀ place, ((CommandLine.writeRenderings root dir documents).runOn machine).2.files.fileAt
        place ≠ machine.files.fileAt place →
      ∃ document ∈ documents, document.isOutside = false ∧
        place = machine.files.placeOf dir ++ (FilePath.mk document.relativePath).cleanNames) := by
  constructor
  · intro place differs
    by_contra notGolden
    exact differs ((Suite.rewritten_run tidy).kept place notGolden)
  · intro place differs
    by_contra notRendering
    exact differs ((CommandLine.differsAt_writeRenderings inside machine).kept place notRendering)

/-- A suite of one case that has two sources and some analyses. -/
def sampleFiles (analyses : List (String × String)) : FileNode :=
  let sources : FileNode := .directory [
    ("a", .file "x".toUTF8), ("b", .file "y".toUTF8)]
  let texts : FileNode := .directory (analyses.map fun (name, text) => (name, .file text.toUTF8))
  .directory [
    ("packageInfo.json", .file "[[\"sample\",\"1.0\"]]".toUTF8),
    ("input", .directory [("c", sources)]),
    ("analysis", .directory [("c", texts)])]

def sampleMachine (analyses : List (String × String)) : Machine where
  files := ⟨.directory [("s", sampleFiles analyses)], []⟩

def sampleSuite : Suite := { root := ⟨"s"⟩ }

def sampleIdentities : CaseIdentities := ⟨⟨"sample", "1.0"⟩, []⟩

theorem proper_sampleMachine {analyses : List (String × String)}
    (names : ∀ analysis ∈ analyses, FilePath.IsName analysis.1)
    (distinct : (analyses.map Prod.fst).Nodup) : (sampleMachine analyses).files.top.Proper := by
  have single {name : String} {node : FileNode} (isName : FilePath.IsName name)
      (proper : node.Proper) : (FileNode.directory [(name, node)]).Proper :=
    .directory (by simpa using isName) (by simp) (by simpa using proper)
  have texts : (FileNode.directory
      (analyses.map fun (name, text) => (name, .file text.toUTF8))).Proper := by
    refine .directory (fun entry member => ?_) (by rwa [List.map_map]) fun entry member => ?_
    · obtain ⟨analysis, isAnalysis, rfl⟩ := List.mem_map.mp member
      exact names analysis isAnalysis
    · obtain ⟨analysis, isAnalysis, rfl⟩ := List.mem_map.mp member
      exact .file _
  have sources : (FileNode.directory [("a", .file "x".toUTF8),
      ("b", .file "y".toUTF8)]).Proper :=
    .directory (by decide) (by decide) (by simp [FileNode.Proper.file])
  refine single (by decide) (.directory (by simp; decide) (by simp) ?_)
  rw [List.forall_mem_cons, List.forall_mem_cons, List.forall_mem_cons]
  exact ⟨.file _, single (by decide) sources, single (by decide) texts, List.forall_mem_nil _⟩

/-- Whether the files of the sample are those of its case, with analyses that are found
in the order of their paths. -/
structure Sampled (tree : FileTree) : Prop where
  identities : (sampleSuite.identities.runOn { files := tree }).1 = .ok (some sampleIdentities)
  registry : (sampleSuite.registry.runOn { files := tree }).1 = .ok (.ofPackages [])
  cases : (sampleSuite.cases.runOn { files := tree }).1 = .ok ["c"]
  ordered : (tree.analysesIn (tree.entriesBelow (sampleSuite.analysisOf "c"))).Pairwise
    fun first second => first.path.le second.path

/-- What is left to do of a run of the sample. -/
def visitSample (mode : SuiteMode) (files : FileTree) : Attempt SuiteError SuiteOutcome :=
  sampleSuite.visitInputs mode "c"
    (sampleSuite.contextOf "c" (sampleIdentities.identityOf "c") (.ofPackages [])) {}
    ((files.analysesIn (files.entriesBelow (sampleSuite.analysisOf "c"))).map .ofFile)

theorem sameOn_run_sample {tree : FileTree} (sampled : Sampled tree) (mode : SuiteMode) :
    Attempt.SameOn { files := tree } (sampleSuite.run mode) (visitSample mode tree) :=
  Suite.sameOn_run_of_ordered rfl sampled.identities sampled.registry sampled.cases sampled.ordered

/-- A document in the case of the sample changes its golden file, and a rendering
of it a file in the directory of renderings. -/
theorem changed_files_inside_of_sample :
    let machine := sampleMachine [("a.json", "[\"a\"]")]
    let document : Document := { relativePath := "a" }
    sampleSuite.Tidy machine.files ∧
      (∃ case ∈ sampleSuite.caseNames machine.files,
        ∃ text ∈ sampleSuite.snapshotPaths machine.files case,
          ["s", "output", "c", "a"] =
            machine.files.placeOf (sampleSuite.outputOf case) ++
              (FilePath.mk text).cleanNames) ∧
      (∃ other ∈ [document], other.isOutside = false ∧
        ["pages", "a"] = machine.files.placeOf ⟨"pages"⟩ ++
          (FilePath.mk other.relativePath).cleanNames) := by
  have tidy : sampleSuite.Tidy (sampleMachine [("a.json", "[\"a\"]")]).files :=
    ⟨proper_sampleMachine (by decide) (by decide), by decide, by decide +kernel⟩
  have inside := changed_files_inside sampleSuite _ tidy ⟨"s/input/c"⟩ ⟨"pages"⟩
    [{ relativePath := "a" }] (by decide)
  exact ⟨tidy, inside.1 _ (by decide +kernel), inside.2 _ (by decide +kernel)⟩

/-- A document that leads out of the output of its case by way of a dot replaces its
own source. -/
theorem fileAt_run_update_of_leading_dot :
    let machine := sampleMachine [("a.json", "[\"./../../input/c/a\"]")]
    ((sampleSuite.run .update).runOn machine).2.files.fileAt ["s", "input", "c", "a"] ≠
        machine.files.fileAt ["s", "input", "c", "a"] ∧
      ¬ machine.files.placeOf (sampleSuite.outputOf "c") <+:
        ["s", "input", "c", "a"] := by
  decide +kernel

end SymbolIndex
