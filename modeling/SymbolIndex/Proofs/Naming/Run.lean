import SymbolIndex.Proofs.Naming.Recursion

/-!
# The naming pass as one run

The naming pass walks from each declared entity outwards and then names what it
has found inwards.  All in all it names one entity after the other, each once
and each after its scope.  Such a run is told here by the list of the entities
that it has named, and a pass that succeeds is a run through all entities of the
analysis.  What holds of every run does not mention walks any more.
-/

namespace SymbolIndex

open Fallible

/-- A part of the naming pass: the entities that it has named, in their order,
and what it has kept of them. -/
inductive NamingRun (context : ProjectNaming) (analysis : AnalyzedFile) :
    List Entity → NamingState → Prop where
  | start : NamingRun context analysis [] {}
  | name {order : List Entity} {state next : NamingState} {entity : Entity}
      (before : NamingRun context analysis order state)
      (declared : entity ∈ analysis.entities)
      (unnamed : state.symbol? entity.id = none)
      (afterScope : ∀ scope, entity.scope = some scope → (state.symbol? scope).isSome = true)
      (named : context.nameEntity analysis state entity = .ok next) :
      NamingRun context analysis (order ++ [entity]) next

namespace AnalyzedFile

variable {analysis : AnalyzedFile} {state : NamingState}

/-- A walk along scopes gives entities without names, none of them twice, and
unless its start has a name the start is one of them. -/
theorem scopeChain_unnamed {remaining : Nat} {inner chain : List Entity} {next : EntityId}
    (unnamed : ∀ entity ∈ inner, state.symbol? entity.id = none)
    (distinct : (inner.map (·.id)).Nodup)
    (walked : analysis.scopeChain state remaining inner next = .ok chain) :
    (∀ entity ∈ chain, state.symbol? entity.id = none) ∧ (chain.map (·.id)).Nodup ∧
      inner ⊆ chain ∧ ((state.symbol? next).isSome = true ∨ next ∈ chain.map (·.id)) := by
  induction remaining generalizing inner next with
  | zero =>
      rcases scopeChain_eq_ok walked with ⟨named, rfl⟩ | ⟨entity, left, -, -, -, isZero, -⟩
      · exact ⟨unnamed, distinct, List.Subset.refl _, .inl named⟩
      · cases isZero
  | succ remaining ih =>
      rcases scopeChain_eq_ok walked with
        ⟨named, rfl⟩ | ⟨entity, left, startUnnamed, found, fresh, isSucc, goesOn⟩
      · exact ⟨unnamed, distinct, List.Subset.refl _, .inl named⟩
      · cases isSucc
        obtain ⟨-, rfl⟩ := entity_eq_some found
        have longerUnnamed : ∀ other ∈ entity :: inner, state.symbol? other.id = none := by
          simpa [startUnnamed] using unnamed
        have longerDistinct : ((entity :: inner).map (·.id)).Nodup := by
          rw [List.map_cons, List.nodup_cons]
          refine ⟨fun again => ?_, distinct⟩
          obtain ⟨other, isInner, sameId⟩ := List.mem_map.mp again
          exact fresh other isInner sameId
        rcases goesOn with ⟨top, rfl⟩ | ⟨scope, isScope, walked⟩
        · exact ⟨longerUnnamed, longerDistinct, by simp, .inr (by simp)⟩
        · obtain ⟨chainUnnamed, chainDistinct, contained, -⟩ :=
            ih longerUnnamed longerDistinct walked
          exact ⟨chainUnnamed, chainDistinct, fun other isInner => contained (by simp [isInner]),
            .inr (List.mem_map_of_mem (contained (by simp)))⟩

/-- A walk along scopes succeeds from an entity whose scope chain is not too long
and does not come back to where the walk has been. -/
theorem exists_scopeChain_eq_ok (distinct : (analysis.entities.map (·.id)).Nodup)
    {entity : Entity} {chain : List Entity} (isChain : ScopeChain analysis entity chain)
    {remaining : Nat} (fits : chain.length ≤ remaining) {inner : List Entity}
    (apart : ∀ other ∈ inner, ∀ outer ∈ chain, other.id ≠ outer.id) :
    ∃ walk, analysis.scopeChain state remaining inner entity.id = .ok walk := by
  induction isChain generalizing remaining inner with
  | @outermost entity declared top =>
      obtain ⟨left, rfl⟩ : ∃ left, remaining = left + 1 :=
        Nat.exists_eq_succ_of_ne_zero (Nat.ne_of_gt fits)
      have fresh : inner.any (·.id = entity.id) = false :=
        List.any_eq_false.mpr fun other isInner => by
          simpa using apart other isInner entity (by simp)
      unfold scopeChain
      split
      · exact ⟨inner, rfl⟩
      · simp [entity?_of_declared distinct declared, fresh, top]
  | @inside entity outer around declared scope isAround ih =>
      rw [List.length_append, List.length_singleton] at fits
      obtain ⟨left, rfl⟩ : ∃ left, remaining = left + 1 :=
        Nat.exists_eq_succ_of_ne_zero (by omega)
      have fresh : inner.any (·.id = entity.id) = false :=
        List.any_eq_false.mpr fun other isInner => by
          simpa using apart other isInner entity (by simp)
      have longerApart : ∀ other ∈ entity :: inner, ∀ further ∈ around, other.id ≠ further.id := by
        intro other member further isFurther
        rcases List.mem_cons.mp member with rfl | isInner
        · exact (isAround.id_ne_of_mem_around distinct declared scope isFurther).symm
        · exact apart other isInner further (by simp [isFurther])
      obtain ⟨walk, walked⟩ := ih (Nat.le_of_succ_le_succ fits) longerApart
      unfold scopeChain
      split
      · exact ⟨inner, rfl⟩
      · exact ⟨walk, by simpa [entity?_of_declared distinct declared, fresh, scope] using walked⟩

end AnalyzedFile

namespace NamingRun

variable {context : ProjectNaming} {analysis : AnalyzedFile} {order : List Entity}
  {state : NamingState}

theorem isSome_symbol?_iff (run : NamingRun context analysis order state) (id : EntityId) :
    (state.symbol? id).isSome = true ↔ id ∈ order.map (·.id) := by
  induction run with
  | start => simp
  | name before declared unnamed afterScope named ih =>
      rw [ProjectNaming.isSome_symbol?_nameEntity named, ih, List.map_append, List.mem_append,
        List.map_singleton, List.mem_singleton, or_comm]

theorem symbol?_eq_none_iff (run : NamingRun context analysis order state) (id : EntityId) :
    state.symbol? id = none ↔ id ∉ order.map (·.id) := by
  rw [← run.isSome_symbol?_iff, Bool.not_eq_true, Option.isSome_eq_false_iff,
    Option.isNone_iff_eq_none]

theorem declared (run : NamingRun context analysis order state) :
    order ⊆ analysis.entities := by
  induction run with
  | start => simp
  | name before declared unnamed afterScope named ih =>
      exact List.append_subset.mpr ⟨ih, by simpa using declared⟩

theorem distinct (run : NamingRun context analysis order state) :
    (order.map (·.id)).Nodup := by
  induction run with
  | start => simp
  | name before declared unnamed afterScope named ih =>
      rw [List.map_append, List.map_singleton, List.nodup_append]
      refine ⟨ih, List.nodup_singleton _, ?_⟩
      intro id isBefore other isLast sameId
      rw [List.mem_singleton.mp isLast] at sameId
      rw [before.symbol?_eq_none_iff] at unnamed
      exact unnamed (sameId ▸ isBefore)

theorem faithful (run : NamingRun context analysis order state) :
    state.Faithful context analysis := by
  induction run with
  | start => exact .empty
  | name before declared unnamed afterScope named ih =>
      exact ih.nameEntity declared afterScope named

/-- A run goes on through a list of entities without names in which each comes
after its scope. -/
theorem append {walk : List Entity} {next : NamingState}
    (run : NamingRun context analysis order state)
    (ordered : OutermostFirst analysis (fun id => (state.symbol? id).isSome = true) walk)
    (unnamed : ∀ entity ∈ walk, state.symbol? entity.id = none)
    (distinct : (walk.map (·.id)).Nodup)
    (named : walk.foldlM (context.nameEntity analysis) state = .ok next) :
    NamingRun context analysis (order ++ walk) next := by
  induction walk generalizing order state with
  | nil =>
      cases named
      simpa using run
  | cons entity walk ih =>
      rw [List.foldlM_cons] at named
      obtain ⟨middle, first, named⟩ := bind_eq_ok.mp named
      obtain ⟨declared, afterScope, restOrdered⟩ := ordered
      rw [List.map_cons, List.nodup_cons] at distinct
      have isSome := ProjectNaming.isSome_symbol?_nameEntity first
      have restUnnamed : ∀ other ∈ walk, middle.symbol? other.id = none := by
        intro other member
        rw [← Option.not_isSome_iff_eq_none, isSome]
        rintro (sameId | already)
        · exact distinct.1 (sameId ▸ List.mem_map_of_mem member)
        · simp [unnamed other (by simp [member])] at already
      have longer : NamingRun context analysis (order ++ [entity]) middle :=
        .name run declared (unnamed entity (by simp)) afterScope first
      have result := ih longer (restOrdered.mono fun id => (isSome id).mpr) restUnnamed
        distinct.2 named
      simpa using result

theorem nameWithScopes {entity : Entity} {next : NamingState}
    (run : NamingRun context analysis order state)
    (named : context.nameWithScopes analysis state entity = .ok next) :
    ∃ walk, NamingRun context analysis (order ++ walk) next ∧
      entity.id ∈ (order ++ walk).map (·.id) := by
  obtain ⟨walk, walked, named⟩ := bind_eq_ok.mp named
  have ordered := AnalyzedFile.outermostFirst_of_scopeChain (.nil _) walked
  obtain ⟨unnamed, distinct, -, reached⟩ :=
    AnalyzedFile.scopeChain_unnamed (by simp) (by simp) walked
  refine ⟨walk, run.append ordered unnamed distinct named, ?_⟩
  rw [run.isSome_symbol?_iff] at reached
  simpa using reached

theorem foldlM_nameWithScopes {entities : List Entity} {next : NamingState}
    (run : NamingRun context analysis order state)
    (named : entities.foldlM (context.nameWithScopes analysis) state = .ok next) :
    ∃ rest, NamingRun context analysis (order ++ rest) next ∧
      ∀ entity ∈ entities, entity.id ∈ (order ++ rest).map (·.id) := by
  induction entities generalizing order state with
  | nil =>
      cases named
      exact ⟨[], by simpa using run, by simp⟩
  | cons entity entities ih =>
      rw [List.foldlM_cons] at named
      obtain ⟨middle, first, named⟩ := bind_eq_ok.mp named
      obtain ⟨walk, longer, reached⟩ := run.nameWithScopes first
      obtain ⟨rest, longest, othersReached⟩ := ih longer named
      refine ⟨walk ++ rest, by simpa using longest, ?_⟩
      rw [← List.append_assoc]
      intro other member
      rcases List.mem_cons.mp member with rfl | member
      · rw [List.map_append]
        exact List.mem_append_left _ reached
      · exact othersReached other member

/-- A naming pass that succeeds is a run through all entities. -/
theorem exists_of_nameEntities (distinct : (analysis.entities.map (·.id)).Nodup)
    (named : context.nameEntities analysis = .ok state) :
    ∃ order, NamingRun context analysis order state ∧ order.Perm analysis.entities := by
  obtain ⟨order, run, reached⟩ := NamingRun.start.foldlM_nameWithScopes named
  rw [List.nil_append] at run reached
  refine ⟨order, run, ?_⟩
  rw [List.perm_ext_iff_of_nodup run.distinct.of_map distinct.of_map]
  intro entity
  refine ⟨fun member => run.declared member, fun declared => ?_⟩
  obtain ⟨other, member, sameId⟩ := List.mem_map.mp (reached entity declared)
  exact AnalyzedFile.eq_of_id_eq distinct (run.declared member) declared sameId ▸ member

end NamingRun

end SymbolIndex
