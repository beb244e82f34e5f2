import SymbolIndex.Proofs.Naming.Reordering

/-!
# Long scope chains

A walk of the naming pass must not be too long, but it ends at the first scope
that has a name.  So a long scope chain is refused if its innermost entity is
declared first, and if its entities are declared from the outside inwards each is
named by a walk of its own.  The length of global symbols is limited in either
order, so it takes a local entity in the chain to see the difference.
-/

namespace SymbolIndex

open Fallible

theorem OutermostFirst.append {analysis : AnalyzedFile} {known : EntityId → Prop}
    {first second : List Entity} (ordered : OutermostFirst analysis known first)
    (restOrdered : OutermostFirst analysis
      (fun id => id ∈ first.map (·.id) ∨ known id) second) :
    OutermostFirst analysis known (first ++ second) := by
  induction first generalizing known with
  | nil => exact restOrdered.mono (by simp)
  | cons entity first ih =>
      obtain ⟨declared, inKnown, firstOrdered⟩ := ordered
      refine ⟨declared, inKnown, ih firstOrdered (restOrdered.mono fun id known => ?_)⟩
      rw [List.map_cons, List.mem_cons] at known
      tauto

namespace AnalyzedFile

variable {analysis : AnalyzedFile} {state : NamingState}

/-- A walk from an entity whose scope has a name goes no further. -/
theorem exists_scopeChain_of_afterScope (distinct : (analysis.entities.map (·.id)).Nodup)
    {entity : Entity} (declared : entity ∈ analysis.entities)
    (afterScope : ∀ scope, entity.scope = some scope → (state.symbol? scope).isSome = true) :
    ∃ walk, analysis.scopeChain state maxChain [] entity.id = .ok walk := by
  have found := entity?_of_declared distinct declared
  by_cases named : (state.symbol? entity.id).isSome = true
  · exact ⟨[], by rw [scopeChain, if_pos named]⟩
  · cases scopeEq : entity.scope with
    | none => exact ⟨[entity], by simp [scopeChain, maxChain, named, found, scopeEq]⟩
    | some scope =>
        have scopeNamed := afterScope scope scopeEq
        exact ⟨[entity], by simp [scopeChain, maxChain, named, found, scopeEq, scopeNamed]⟩

/-- A walk that succeeds along a scope chain without names was long enough. -/
theorem length_le_of_scopeChain (distinct : (analysis.entities.map (·.id)).Nodup)
    {entity : Entity} {chain : List Entity} (isChain : ScopeChain analysis entity chain)
    (unnamed : ∀ outer ∈ chain, state.symbol? outer.id = none) {remaining : Nat}
    {inner walk : List Entity}
    (walked : analysis.scopeChain state remaining inner entity.id = .ok walk) :
    chain.length ≤ remaining := by
  induction isChain generalizing remaining inner with
  | outermost declared top =>
      rcases scopeChain_eq_ok walked with ⟨named, -⟩ | ⟨-, left, -, -, -, rfl, -⟩
      · simp [unnamed] at named
      · simp
  | @inside entity outer around declared scope isAround ih =>
      rcases scopeChain_eq_ok walked with ⟨named, -⟩ | ⟨other, left, -, found, -, rfl, goesOn⟩
      · simp [unnamed] at named
      · rw [entity?_of_declared distinct declared] at found
        cases found
        rcases goesOn with ⟨top, -⟩ | ⟨next, isNext, walked⟩
        · cases scope.symm.trans top
        · cases scope.symm.trans isNext
          have fits := ih (fun further isFurther => unnamed further (by simp [isFurther])) walked
          simpa using fits

end AnalyzedFile

namespace ProjectNaming

variable {context : ProjectNaming} {analysis : AnalyzedFile}

theorem exists_foldlM_of_outermostFirst (wellFormed : WellFormed context analysis)
    (shallow : ShallowExports analysis) {order rest : List Entity} {state : NamingState}
    (run : NamingRun context analysis order state)
    (ordered : OutermostFirst analysis (fun id => (state.symbol? id).isSome = true) rest) :
    ∃ last, rest.foldlM (context.nameWithScopes analysis) state = .ok last := by
  induction rest generalizing order state with
  | nil => exact ⟨state, rfl⟩
  | cons entity rest ih =>
      obtain ⟨declared, afterScope, restOrdered⟩ := ordered
      obtain ⟨walk, walked⟩ :=
        AnalyzedFile.exists_scopeChain_of_afterScope wellFormed.distinct declared afterScope
      obtain ⟨next, named⟩ := exists_foldlM_nameEntity_eq_ok wellFormed shallow run.faithful
        (AnalyzedFile.outermostFirst_of_scopeChain (.nil _) walked)
      have first : context.nameWithScopes analysis state entity = .ok next := by
        rw [nameWithScopes, walked]
        exact named
      obtain ⟨part, longer, reached⟩ := run.nameWithScopes first
      have stillKnown : ∀ id, id = entity.id ∨ (state.symbol? id).isSome = true →
          (next.symbol? id).isSome = true := by
        intro id known
        rw [longer.isSome_symbol?_iff]
        rcases known with rfl | known
        · exact reached
        · rw [run.isSome_symbol?_iff] at known
          rw [List.map_append]
          exact List.mem_append_left _ known
      obtain ⟨last, others⟩ := ih longer (restOrdered.mono stillKnown)
      exact ⟨last, by rw [List.foldlM_cons, first]; exact others⟩

/-- Declared from the outside inwards, a well-formed analysis is named however
long its scope chains are. -/
theorem exists_nameFile_of_outermostFirst (wellFormed : WellFormed context analysis)
    (shallow : ShallowExports analysis)
    (ordered : OutermostFirst analysis (fun _ => False) analysis.entities) :
    ∃ named, context.nameFile analysis = .ok named := by
  obtain ⟨last, entitiesNamed⟩ := exists_foldlM_of_outermostFirst wellFormed shallow .start
    (ordered.mono fun id => False.elim)
  exact exists_nameFile_of_nameEntities wellFormed entitiesNamed

/-- An analysis is refused when the scope chain of its first entity is longer than
a walk may be. -/
theorem not_exists_nameFile_of_long {first : Entity} {rest chain : List Entity}
    (isFirst : analysis.entities = first :: rest) (isChain : ScopeChain analysis first chain)
    (tooLong : AnalyzedFile.maxChain < chain.length) :
    ¬ ∃ named, context.nameFile analysis = .ok named := by
  rintro ⟨named, success⟩
  obtain ⟨noDuplicate, last, -, entitiesNamed, -⟩ := nameFile_eq_ok success
  rw [nameEntities, isFirst, List.foldlM_cons] at entitiesNamed
  obtain ⟨next, firstNamed, -⟩ := bind_eq_ok.mp entitiesNamed
  obtain ⟨walk, walked, -⟩ := bind_eq_ok.mp firstNamed
  have fits := AnalyzedFile.length_le_of_scopeChain
    (AnalyzedFile.nodup_of_duplicate_eq_none noDuplicate) isChain (by simp) walked
  exact Nat.not_lt.mpr fits tooLong

end ProjectNaming

/-- One of several scopes that stand in each other.  The outermost is local. -/
def nestedScope (number : Nat) : Entity where
  id := .ofNat number
  name := "scope"
  kind := .nameSpace
  disambiguator := ""
  visibility := if number = 0 then .inFile else .exported
  scope := if number = 0 then none else some (.ofNat (number - 1))
  definedIn := none
  documentation := []

/-- As many scopes in each other as are too many for one walk, declared from the
outside inwards. -/
def nestedAnalysis : AnalyzedFile where
  relativePath := "nested.py"
  language := "python"
  entities := (List.range (AnalyzedFile.maxChain + 1)).map nestedScope
  occurrences := []

section Nested

theorem mem_nestedAnalysis {entity : Entity} :
    entity ∈ nestedAnalysis.entities ↔
      ∃ number ≤ AnalyzedFile.maxChain, nestedScope number = entity := by
  simp only [nestedAnalysis, List.mem_map, List.mem_range, Nat.lt_succ_iff]

theorem nodup_nestedAnalysis : (nestedAnalysis.entities.map (·.id)).Nodup := by
  rw [nestedAnalysis, List.map_map]
  refine List.Nodup.map_on ?_ List.nodup_range
  intro first isFirst second isSecond same
  have sameNumbers := congrArg UInt32.toNat same
  rw [List.mem_range, AnalyzedFile.maxChain, maxDepth] at isFirst isSecond
  simp only [Function.comp_apply, nestedScope, UInt32.toNat_ofNat'] at sameNumbers
  omega

theorem scopeChain_nestedScope {number : Nat} (inside : number ≤ AnalyzedFile.maxChain) :
    ScopeChain nestedAnalysis (nestedScope number)
      ((List.range (number + 1)).map nestedScope) := by
  induction number with
  | zero => exact .outermost (mem_nestedAnalysis.mpr ⟨0, inside, rfl⟩) rfl
  | succ number ih =>
      rw [List.range_succ, List.map_append, List.map_singleton]
      exact .inside (mem_nestedAnalysis.mpr ⟨number + 1, inside, rfl⟩)
        (by simp [nestedScope]) (ih (Nat.le_of_succ_le inside))

/-- Every scope chain begins with the local scope. -/
theorem nestedScope_zero_mem {entity : Entity} {chain : List Entity}
    (isChain : ScopeChain nestedAnalysis entity chain) : nestedScope 0 ∈ chain := by
  obtain ⟨number, inside, rfl⟩ := mem_nestedAnalysis.mp isChain.declared
  rw [isChain.unique nodup_nestedAnalysis (scopeChain_nestedScope inside)]
  exact List.mem_map_of_mem (by simp)

theorem wellFormed_nestedAnalysis (context : ProjectNaming) :
    WellFormed context nestedAnalysis where
  distinct := nodup_nestedAnalysis
  scopesDeclared entity declared scope isScope := by
    obtain ⟨number, inside, rfl⟩ := mem_nestedAnalysis.mp declared
    cases number with
    | zero => cases isScope
    | succ number =>
        exact ⟨nestedScope number,
          mem_nestedAnalysis.mpr ⟨number, Nat.le_of_succ_le inside, rfl⟩,
          by simpa [nestedScope] using isScope⟩
  acyclic entity around := by
    obtain ⟨-, -, -, declared, -⟩ := Relation.TransGen.tail'_iff.mp around
    obtain ⟨number, inside, rfl⟩ := mem_nestedAnalysis.mp declared
    exact (scopeChain_nestedScope inside).not_encloses_self nodup_nestedAnalysis around
  attributed entity declared isExported top := by
    obtain rfl := List.mem_singleton.mp (nestedScope_zero_mem (.outermost declared top))
    cases isExported
  writable entity chain isChain allExported := by
    cases allExported _ (nestedScope_zero_mem isChain)
  mentions := by simp [nestedAnalysis]

theorem outermostFirst_nestedScope {count : Nat} (inside : count ≤ AnalyzedFile.maxChain + 1) :
    OutermostFirst nestedAnalysis (fun _ => False) ((List.range count).map nestedScope) := by
  induction count with
  | zero => trivial
  | succ count ih =>
      rw [List.range_succ, List.map_append, List.map_singleton]
      refine (ih (Nat.le_of_succ_le inside)).append
        ⟨mem_nestedAnalysis.mpr ⟨count, Nat.le_of_succ_le_succ inside, rfl⟩, ?_, trivial⟩
      intro scope isScope
      cases count with
      | zero => cases isScope
      | succ outer =>
          cases isScope
          exact .inl (List.mem_map_of_mem (List.mem_map_of_mem (by simp)))

/-- Scopes that can be named from the outside inwards cannot be named in the
reverse order. -/
theorem not_exists_nameFile_of_reversed :
    nestedAnalysis.entities.Perm nestedAnalysis.entities.reverse ∧
      (∃ named, widgetNaming.nameFile nestedAnalysis = .ok named) ∧
      ¬ ∃ named, widgetNaming.nameFile
        { nestedAnalysis with entities := nestedAnalysis.entities.reverse } = .ok named := by
  have perm := nestedAnalysis.entities.reverse_perm.symm
  refine ⟨perm, ?_, ?_⟩
  · refine ProjectNaming.exists_nameFile_of_outermostFirst
      (wellFormed_nestedAnalysis widgetNaming) ?_ (outermostFirst_nestedScope (Nat.le_refl _))
    intro entity chain isChain allExported
    cases allExported _ (nestedScope_zero_mem isChain)
  · have isFirst : nestedAnalysis.entities.reverse =
        nestedScope AnalyzedFile.maxChain ::
          ((List.range AnalyzedFile.maxChain).map nestedScope).reverse := by
      simp [nestedAnalysis, List.range_succ]
    exact ProjectNaming.not_exists_nameFile_of_long isFirst
      ((scopeChain_nestedScope (Nat.le_refl _)).of_perm perm) (by simp)

end Nested

end SymbolIndex
