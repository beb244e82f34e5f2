import SymbolIndex.Index.Assembly

/-!
# What an assembly in order comes to

Each file contributes a document or fails.  Under the policy to go on, the
documents make the index and the failures are listed, both in the order of the
files.  Under the policy to abort, the first failure in that order is all there
is to tell.
-/

namespace SymbolIndex

namespace IndexInput

/-- The document of a file that is loaded and named. -/
def document? (context : ProjectNaming) (input : IndexInput) : Option Document :=
  match input.name context with
  | .ok named => some named.document
  | .error _ => none

/-- The failure of a file that is not loaded or not named. -/
def failure? (context : ProjectNaming) (input : IndexInput) : Option UnindexedFile :=
  match input.name context with
  | .ok _ => none
  | .error error => some ⟨input.label, error⟩

theorem document_or_failure (input : IndexInput) (context : ProjectNaming) :
    (∃ document, input.document? context = some document ∧
        input.failure? context = none) ∨
      ∃ failure, input.document? context = none ∧
        input.failure? context = some failure := by
  unfold document? failure?
  cases input.name context with
  | ok named => exact .inl ⟨_, rfl, rfl⟩
  | error error => exact .inr ⟨_, rfl, rfl⟩

/-- Whether some file is not loaded or not named. -/
def SomeFails (context : ProjectNaming) (inputs : List IndexInput) : Prop :=
  ∃ input ∈ inputs, ∃ error, input.name context = .error error

theorem filterMap_failure?_eq_nil {context : ProjectNaming} {inputs : List IndexInput} :
    inputs.filterMap (·.failure? context) = [] ↔ ¬ SomeFails context inputs := by
  have failure {input : IndexInput} :
      input.failure? context = none ↔ ¬ ∃ error, input.name context = .error error := by
    unfold failure?
    cases input.name context <;> simp
  simp only [List.filterMap_eq_nil_iff, failure, SomeFails, not_exists, not_and]

end IndexInput

namespace Index

/-- What the files of an assembly come to, told from the documents and failures
of the files in their order. -/
def ofInputs (context : ProjectNaming) (policy : FailurePolicy) (metadata : Metadata)
    (inputs : List IndexInput) : Except AssemblyError AssemblyReport :=
  let documents := inputs.filterMap (·.document? context)
  match policy, inputs.filterMap (·.failure? context) with
  | .abort, first :: _ => .error (.aborted first)
  | _, failures => .ok ⟨⟨some metadata, documents⟩, failures, documents.length⟩

end Index

namespace AssemblyProgress

variable {context : ProjectNaming} {progress : AssemblyProgress}

/-- Nothing happens after a failure that ends the assembly. -/
theorem add_of_aborted {failure : UnindexedFile} (ended : progress.aborted = some failure)
    (policy : FailurePolicy) (label : String)
    (result : Except IndexingError Contribution) :
    progress.add policy label result = progress := by
  simp [add, ended]

theorem addInput_of_document {input : IndexInput} {document : Document}
    (policy : FailurePolicy) (going : progress.aborted = none)
    (named : input.document? context = some document) :
    progress.addInput context policy input =
      { progress with
        draft := progress.draft.merge (.ofDocument document)
        indexed := progress.indexed + 1 } := by
  unfold IndexInput.document? at named
  split at named
  · rename_i result success
    cases named
    simp [addInput, add, going, IndexInput.contribution, success, Except.map,
      Contribution.ofDocument]
  · cases named

theorem addInput_of_failure {input : IndexInput} {failure : UnindexedFile}
    (policy : FailurePolicy) (going : progress.aborted = none)
    (failed : input.failure? context = some failure) :
    progress.addInput context policy input =
      match policy with
      | .proceed => { progress with failures := progress.failures ++ [failure] }
      | .abort => { progress with aborted := some failure } := by
  unfold IndexInput.failure? at failed
  split at failed
  · cases failed
  · rename_i error fault
    cases failed
    cases policy <;> simp [addInput, add, going, IndexInput.contribution, fault, Except.map]

/-- The files of an assembly that is not ended add their documents and failures. -/
theorem foldl_addInput {policy : FailurePolicy} {inputs : List IndexInput}
    (going : progress.aborted = none)
    (continues : policy = .proceed ∨ inputs.filterMap (·.failure? context) = []) :
    inputs.foldl (addInput context policy) progress =
      { progress with
        draft := ⟨progress.draft.metadata,
          progress.draft.documents ++ inputs.filterMap (·.document? context)⟩
        failures := progress.failures ++ inputs.filterMap (·.failure? context)
        indexed := progress.indexed + (inputs.filterMap (·.document? context)).length } := by
  induction inputs generalizing progress with
  | nil => simp
  | cons input inputs ih =>
      rw [List.foldl_cons]
      rcases input.document_or_failure context with
        ⟨document, isDocument, noFailure⟩ | ⟨failure, noDocument, isFailure⟩
      · have restContinues :
            policy = .proceed ∨ inputs.filterMap (·.failure? context) = [] := by
          simpa [noFailure] using continues
        have stillGoing : (progress.addInput context policy input).aborted = none := by
          rw [addInput_of_document policy going isDocument]
          exact going
        rw [ih stillGoing restContinues, addInput_of_document policy going isDocument]
        simp [isDocument, noFailure, IndexDraft.merge, Contribution.ofDocument,
          Nat.add_assoc, Nat.add_comm 1]
      · have goesOn : policy = .proceed := by
          simpa [isFailure] using continues
        subst goesOn
        have stillGoing : (progress.addInput context .proceed input).aborted = none := by
          rw [addInput_of_failure .proceed going isFailure]
          exact going
        rw [ih stillGoing (.inl rfl), addInput_of_failure .proceed going isFailure]
        simp [noDocument, isFailure]

theorem foldl_addInput_of_aborted {failure : UnindexedFile} {policy : FailurePolicy}
    (ended : progress.aborted = some failure) (inputs : List IndexInput) :
    inputs.foldl (addInput context policy) progress = progress := by
  induction inputs with
  | nil => rfl
  | cons input inputs ih =>
      rw [List.foldl_cons, addInput, add_of_aborted ended]
      exact ih

/-- Under the policy to abort, the first failure ends the assembly. -/
theorem aborted_foldl_addInput {inputs : List IndexInput} {first : UnindexedFile}
    {later : List UnindexedFile} (going : progress.aborted = none)
    (failures : inputs.filterMap (·.failure? context) = first :: later) :
    (inputs.foldl (addInput context .abort) progress).aborted = some first := by
  induction inputs generalizing progress with
  | nil => cases failures
  | cons input inputs ih =>
      rw [List.foldl_cons]
      rcases input.document_or_failure context with
        ⟨document, isDocument, noFailure⟩ | ⟨failure, noDocument, isFailure⟩
      · rw [addInput_of_document .abort going isDocument]
        exact ih going (by simpa [noFailure] using failures)
      · simp only [List.filterMap_cons, isFailure, List.cons.injEq] at failures
        rw [addInput_of_failure .abort going isFailure, foldl_addInput_of_aborted rfl]
        exact congrArg some failures.1

end AssemblyProgress

namespace Index

/-- An assembly in order comes to what is told from the documents and failures of
its files. -/
theorem assemble_eq_ofInputs (context : ProjectNaming) (policy : FailurePolicy)
    (metadata : Metadata) (inputs : List IndexInput) :
    assemble context policy metadata inputs =
      ofInputs context policy metadata inputs := by
  have going : (AssemblyProgress.start metadata).aborted = none := rfl
  unfold assemble ofInputs
  cases policy with
  | proceed =>
      rw [AssemblyProgress.foldl_addInput going (.inl rfl)]
      simp [AssemblyProgress.start, AssemblyProgress.finish, IndexDraft.merge,
        IndexDraft.finish?, Contribution.ofMetadata]
  | abort =>
      cases failures : inputs.filterMap (·.failure? context) with
      | nil =>
          rw [AssemblyProgress.foldl_addInput going (.inr failures), failures]
          simp [AssemblyProgress.start, AssemblyProgress.finish, IndexDraft.merge,
            IndexDraft.finish?, Contribution.ofMetadata]
      | cons first later =>
          have aborted := AssemblyProgress.aborted_foldl_addInput going failures
          simp [AssemblyProgress.finish, aborted]

variable {context : ProjectNaming} {policy : FailurePolicy} {inputs : List IndexInput}

/-- Under the policy to abort, one file that fails is enough. -/
theorem exists_assemble_eq_error (aborts : policy = .abort)
    (fails : IndexInput.SomeFails context inputs) (metadata : Metadata) :
    ∃ error, assemble context policy metadata inputs = .error error := by
  subst aborts
  rw [assemble_eq_ofInputs]
  cases failures : inputs.filterMap (·.failure? context) with
  | nil => exact absurd fails (IndexInput.filterMap_failure?_eq_nil.mp failures)
  | cons first later => exact ⟨.aborted first, by simp only [ofInputs, failures]⟩

theorem assemble_eq_ok (continues : policy = .abort → ¬ IndexInput.SomeFails context inputs)
    (metadata : Metadata) :
    ∃ report, assemble context policy metadata inputs = .ok report ∧
      report.index.documents = inputs.filterMap (·.document? context) ∧
      (report.isClean = true ↔ ¬ IndexInput.SomeFails context inputs) := by
  rw [assemble_eq_ofInputs, ← IndexInput.filterMap_failure?_eq_nil]
  rw [← IndexInput.filterMap_failure?_eq_nil] at continues
  have told : ofInputs context policy metadata inputs =
      .ok ⟨⟨some metadata, inputs.filterMap (·.document? context)⟩,
        inputs.filterMap (·.failure? context),
        (inputs.filterMap (·.document? context)).length⟩ := by
    cases policy with
    | proceed => rfl
    | abort => simp only [ofInputs, continues rfl]
  exact ⟨_, told, rfl, List.isEmpty_iff⟩

end Index

end SymbolIndex
