import SymbolIndex.Proofs.Machine.Branches
import SymbolIndex.Proofs.Machine.Twins
import SymbolIndex.Snapshot.Suite

/-!
# What a run of a suite looks at

Until a snapshot is compared or put in its place, a run of a suite only looks at
files, so it comes to the same on two trees in which these files are the same.
-/

namespace SymbolIndex

open FileTree (AlikeFor)

variable {related : Machine → Machine → Prop} {old new : FileTree}

namespace PackageOrigin

theorem agrees_loadCache {path : FilePath} (alike : AlikeFor old new path) :
    Attempt.Agrees related old new (load (.cache path)) := by
  refine Attempt.agrees_bind
    (Attempt.agrees_ofSession _ (Session.agrees_readText alike.read_eq)) fun _ _ _ _ => ?_
  split
  · exact Attempt.agrees_pure _
  · exact Attempt.agrees_throw _

end PackageOrigin

namespace Registry

theorem agrees_load {source : PackageOrigin}
    (agrees : Attempt.Agrees Machine.Alike old new source.load) :
    Attempt.Agrees Machine.Alike old new (load source) :=
  Attempt.agrees_bind (Attempt.agrees_mapError _ agrees) fun _ _ _ _ =>
    Attempt.agrees_bind (Attempt.agrees_log _ _ _) fun _ _ _ _ => Attempt.agrees_pure _

end Registry

namespace ProjectIdentity

variable {root : FilePath}

theorem agrees_loadManifest (alike : AlikeFor old new (root.child Manifest.fileName)) :
    Attempt.Agrees related old new (Manifest.load root) := by
  refine Attempt.agrees_bind (Attempt.agrees_lift (Session.agrees_readText alike.read_eq))
    fun _ _ _ _ => ?_
  split
  · exact Attempt.agrees_pure _
  · split
    · exact Attempt.agrees_pure _
    · exact Attempt.agrees_throw _

theorem agrees_resolveVersion (alike : AlikeFor old new root) (known : Option String) :
    Attempt.Agrees Machine.Alike old new (resolveVersion root known) := by
  unfold resolveVersion
  split
  · exact Attempt.agrees_pure _
  · refine Attempt.agrees_bind (Attempt.agrees_lift ?_) fun _ _ _ _ => ?_
    · refine Session.agrees_bind (Session.agrees_runProgram _ _ alike.kind?_eq) fun _ _ => ?_
      split
      · exact Session.agrees_pure _
      · dsimp only
        split <;> exact Session.agrees_pure _
    · split
      · exact Attempt.agrees_pure _
      · exact Attempt.agrees_throw _

theorem agrees_resolve (alike : AlikeFor old new root)
    (alikeManifest : AlikeFor old new (root.child Manifest.fileName))
    (name version : Option String) :
    Attempt.Agrees Machine.Alike old new (resolve root name version) := by
  refine Attempt.agrees_bind (agrees_loadManifest alikeManifest) fun _ manifest _ _ => ?_
  split
  · exact Attempt.agrees_throw _
  · refine Attempt.agrees_bind (agrees_resolveVersion alike _) fun _ _ _ _ => ?_
    exact Attempt.agrees_bind (Attempt.agrees_log _ _ _) fun _ _ _ _ => Attempt.agrees_pure _

end ProjectIdentity

namespace AnalyzedFile

theorem agrees_load {path : FilePath} (alike : AlikeFor old new path) :
    Attempt.Agrees related old new (load path) := by
  refine Attempt.agrees_bind
    (Attempt.agrees_ofSession _ (Session.agrees_readText alike.read_eq)) fun _ _ _ _ => ?_
  split
  · exact Attempt.agrees_pure _
  · exact Attempt.agrees_throw _

theorem agrees_loadEntry {path : FilePath} (alike : AlikeFor old new path)
    (kind : Except FileError EntryKind) :
    Session.Agrees related old new (loadEntry path kind) := by
  unfold loadEntry
  split
  · exact Session.agrees_pure _
  · split
    · exact Session.agrees_bind (agrees_load alike) fun _ _ => Session.agrees_pure _
    · exact Session.agrees_pure _
  · exact Session.agrees_pure _

theorem agrees_loadEntries {entries : List (FilePath × Except FileError EntryKind)}
    (alike : ∀ entry ∈ entries, AlikeFor old new entry.1) :
    Session.Agrees related old new (loadEntries entries) := by
  induction entries with
  | nil => exact Session.agrees_pure _
  | cons entry rest ih =>
      obtain ⟨path, kind⟩ := entry
      have first := @agrees_loadEntry related _ _ _ (alike _ (List.mem_cons_self ..)) kind
      have others := ih fun other member => alike other (List.mem_cons_of_mem _ member)
      exact Session.agrees_bind first fun _ _ =>
        Session.agrees_bind others fun _ _ => Session.agrees_pure _

theorem agrees_loadDirectory {dir : FilePath} (same : new.node dir = old.node dir)
    (alike : ∀ entries, old.walk dir = .ok entries → ∀ entry ∈ entries,
      AlikeFor old new entry.1) :
    Attempt.Agrees related old new (loadDirectory dir) := by
  have sameKind : new.kind? dir = old.kind? dir := by
    rw [FileTree.kind?, FileTree.kind?, same]
  have sameWalk : new.walk dir = old.walk dir := by
    rw [FileTree.walk, FileTree.walk, same]
  refine Attempt.agrees_bind (Attempt.agrees_lift (Session.agrees_pathExists sameKind))
    fun _ _ _ _ => ?_
  split
  · refine Attempt.agrees_bind (Attempt.agrees_ofSession _ (Session.agrees_walk sameWalk))
      fun machine entries files walked => ?_
    rw [Attempt.runOn_ofSession, Session.run_walk, files] at walked
    cases listed : old.walk dir with
    | error error =>
        rw [listed] at walked
        cases walked
    | ok found =>
        rw [listed] at walked
        cases walked
        refine Attempt.agrees_bind (Attempt.agrees_lift (agrees_loadEntries ?_))
          fun _ _ _ _ => Attempt.agrees_pure _
        intro entry member
        obtain ⟨other, isListed, rfl⟩ := List.mem_map.mp member
        exact alike found listed other isListed
  · exact Attempt.agrees_pure _

end AnalyzedFile

namespace Index

theorem agrees_reportNaming (context : ProjectNaming) (policy : FailurePolicy)
    (inputs : List IndexInput) :
    Session.Agrees Machine.Alike old new (reportNaming context policy inputs) := by
  induction inputs with
  | nil => exact Session.agrees_pure _
  | cons input rest ih =>
      refine Session.agrees_bind (Session.agrees_event _) fun _ _ => ?_
      split
      · exact Session.agrees_pure _
      · exact ih

theorem agrees_build (context : ProjectNaming) (policy : FailurePolicy) (metadata : Metadata)
    (inputs : List IndexInput) :
    Attempt.Agrees Machine.Alike old new (build context policy metadata inputs) := by
  refine Attempt.agrees_bind (Attempt.agrees_lift Session.agrees_clock) fun _ _ _ _ => ?_
  refine Attempt.agrees_bind (Attempt.agrees_lift (agrees_reportNaming context policy inputs))
    fun _ _ _ _ => ?_
  split
  · exact Attempt.agrees_throw _
  · refine Attempt.agrees_bind (Attempt.agrees_lift Session.agrees_clock) fun _ _ _ _ => ?_
    exact Attempt.agrees_bind (Attempt.agrees_log _ _ _) fun _ _ _ _ => Attempt.agrees_pure _

end Index

namespace Suite

variable {suite : Suite} {case : String}

/-- The path of the packages of all cases. -/
def cachePath (suite : Suite) : FilePath :=
  suite.environment.getD (suite.root.child "environment.json")

/-- Whether two trees look the same to whatever is read for a case but its
sources. -/
structure CaseAlike (suite : Suite) (old new : FileTree) (case : String) : Prop where
  workingDirectory : new.workingDirectory = old.workingDirectory
  input : AlikeFor old new (suite.inputOf case)
  manifest : AlikeFor old new ((suite.inputOf case).child Manifest.fileName)
  directory : new.node (suite.analysisOf case) = old.node (suite.analysisOf case)
  analyses : ∀ entries, old.walk (suite.analysisOf case) = .ok entries → ∀ entry ∈ entries,
    AlikeFor old new entry.1

theorem CaseAlike.refl (suite : Suite) (tree : FileTree) (case : String) :
    suite.CaseAlike tree tree case :=
  ⟨rfl, .refl _ _, .refl _ _, rfl, fun _ _ _ _ => .refl _ _⟩

theorem agrees_cases
    (same : new.list (suite.root.child "input") = old.list (suite.root.child "input")) :
    Attempt.Agrees related old new suite.cases := by
  unfold cases
  split
  · exact Attempt.agrees_pure _
  · exact Attempt.agrees_bind (Attempt.agrees_ofSession _ (Session.agrees_list same))
      fun _ _ _ _ => Attempt.agrees_pure _

theorem agrees_identities (alike : AlikeFor old new (suite.root.child "packageInfo.json")) :
    Attempt.Agrees related old new suite.identities := by
  refine Attempt.agrees_bind (Attempt.agrees_lift (Session.agrees_pathExists alike.kind?_eq))
    fun _ _ _ _ => ?_
  split
  · refine Attempt.agrees_bind
      (Attempt.agrees_ofSession _ (Session.agrees_readText alike.read_eq)) fun _ _ _ _ => ?_
    split
    · exact Attempt.agrees_pure _
    · exact Attempt.agrees_throw _
  · exact Attempt.agrees_pure _

theorem agrees_registry (alike : AlikeFor old new suite.cachePath) :
    Attempt.Agrees Machine.Alike old new suite.registry := by
  refine Attempt.agrees_bind (Attempt.agrees_lift (Session.agrees_pathExists alike.kind?_eq))
    fun _ _ _ _ => Attempt.agrees_mapError _ (Registry.agrees_load ?_)
  split
  · exact PackageOrigin.agrees_loadCache alike
  · exact Attempt.agrees_pure _

theorem agrees_identityOf (alike : suite.CaseAlike old new case)
    (identities : Option CaseIdentities) :
    Attempt.Agrees Machine.Alike old new (suite.identityOf identities case) := by
  unfold identityOf
  split
  · exact Attempt.agrees_pure _
  · exact Attempt.agrees_mapError _
      (ProjectIdentity.agrees_resolve alike.input alike.manifest none none)

theorem agrees_assemble (alike : suite.CaseAlike old new case)
    (identities : Option CaseIdentities) (registry : Registry) :
    Attempt.Agrees Machine.Alike old new (suite.assemble identities registry case) := by
  refine Attempt.agrees_bind (agrees_identityOf alike identities) fun _ _ _ _ => ?_
  refine Attempt.agrees_bind (Attempt.agrees_mapError _
    (AnalyzedFile.agrees_loadDirectory alike.directory alike.analyses)) fun _ _ _ _ => ?_
  refine Attempt.agrees_bind (Attempt.agrees_lift
    (Session.agrees_workingDirectory alike.workingDirectory)) fun _ _ _ _ => ?_
  exact Attempt.agrees_bind (Attempt.agrees_mapError _ (Index.agrees_build _ _ _ _))
    fun _ _ _ _ => Attempt.agrees_pure _

theorem agrees_snapshot {document : Document}
    (alike : AlikeFor old new ((suite.inputOf case).child document.relativePath)) :
    Attempt.Agrees related old new (suite.snapshot case document) :=
  Attempt.agrees_bind (Attempt.agrees_ofSession _ (Session.agrees_readText alike.read_eq))
    fun _ _ _ _ => Attempt.agrees_pure _

end Suite

end SymbolIndex
