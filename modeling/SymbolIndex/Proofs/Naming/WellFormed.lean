import SymbolIndex.Proofs.Naming.Run
import Mathlib.Data.Set.Finite.List
import Mathlib.Logic.Relation

/-!
# Which analyses can be named

The naming pass fails in several places: at an entity that is declared twice, on
the way along scopes, at the package of an outermost entity, at a descriptor and
at an occurrence.  Some of these places are passed by for entities that end up
local.  What is asked of an analysis is collected here without the pass: its
scopes form trees, and whatever is named globally can be attributed and written.
-/

namespace SymbolIndex

open Fallible

namespace Entity

/-- Whether an entity can be a segment of a global symbol: only methods carry a
disambiguator, and the written segment is not too long. -/
def IsWritable (entity : Entity) : Prop :=
  ∃ allowed : entity.disambiguator ≠ "" → entity.kind = .method,
    (String.ofList (Descriptor.spelling
      ⟨entity.name, entity.kind, entity.disambiguator, allowed⟩)).utf8ByteSize ≤ maxFragmentSize

theorem exists_fragment_iff {entity : Entity} :
    (∃ written, entity.fragment = .ok written) ↔ entity.IsWritable := by
  unfold fragment IsWritable
  by_cases allowed : entity.disambiguator ≠ "" → entity.kind = .method
  · have made : Descriptor.make entity.name entity.kind entity.disambiguator =
        .ok ⟨entity.name, entity.kind, entity.disambiguator, allowed⟩ := dif_pos allowed
    rw [made]
    simp only [Descriptor.fragment, exists_prop_of_true allowed]
    split
    · rename_i tooLong
      simp [Nat.not_le.mpr tooLong]
    · rename_i fits
      simp [Nat.not_lt.mp fits]
  · have refused : ∃ fault, Descriptor.make entity.name entity.kind entity.disambiguator =
        .error fault := ⟨_, dif_neg allowed⟩
    obtain ⟨fault, refused⟩ := refused
    simp [refused, allowed]

end Entity

/-- Whether an entity is the scope of another. -/
def Encloses (analysis : AnalyzedFile) (outer inner : Entity) : Prop :=
  outer ∈ analysis.entities ∧ inner ∈ analysis.entities ∧ inner.scope = some outer.id

/-- What is asked of an analysis so that it can be named. -/
structure WellFormed (context : ProjectNaming) (analysis : AnalyzedFile) : Prop where
  distinct : (analysis.entities.map (·.id)).Nodup
  scopesDeclared : ∀ entity ∈ analysis.entities, ∀ scope, entity.scope = some scope →
    ∃ outer ∈ analysis.entities, outer.id = scope
  acyclic : ∀ entity, ¬ Relation.TransGen (Encloses analysis) entity entity
  attributed : ∀ entity ∈ analysis.entities, entity.visibility = .exported →
    entity.scope = none → ∃ owner, context.registry.resolve (context.projectRoot.join
      (entity.definedIn.getD ⟨analysis.relativePath⟩)) = .ok owner
  writable : ∀ entity chain, ScopeChain analysis entity chain →
    (∀ other ∈ chain, other.visibility = .exported) → entity.IsWritable
  mentions : ∀ mention ∈ analysis.occurrences,
    (∃ entity ∈ analysis.entities, entity.id = mention.entity) ∧
      mention.hasProperRange = true

namespace ScopeChain

variable {analysis : AnalyzedFile}

theorem of_encloses (distinct : (analysis.entities.map (·.id)).Nodup) {outer inner : Entity}
    {chain : List Entity} (encloses : Encloses analysis outer inner)
    (isChain : ScopeChain analysis inner chain) :
    ∃ around, ScopeChain analysis outer around ∧ chain = around ++ [inner] := by
  obtain ⟨outerDeclared, -, isScope⟩ := encloses
  cases isChain with
  | outermost declared top => simp [top] at isScope
  | inside declared scope isAround =>
      have sameId := Option.some.inj (scope.symm.trans isScope)
      obtain rfl := AnalyzedFile.eq_of_id_eq distinct isAround.declared outerDeclared sameId
      exact ⟨_, isAround, rfl⟩

/-- The scope chain of an entity around another is shorter than the other's. -/
theorem exists_shorter (distinct : (analysis.entities.map (·.id)).Nodup)
    {outer inner : Entity} (around : Relation.TransGen (Encloses analysis) outer inner)
    {chain : List Entity} (isChain : ScopeChain analysis inner chain) :
    ∃ shorter, ScopeChain analysis outer shorter ∧ shorter.length < chain.length := by
  induction around generalizing chain with
  | single encloses =>
      obtain ⟨shorter, isShorter, rfl⟩ := isChain.of_encloses distinct encloses
      exact ⟨shorter, isShorter, by simp⟩
  | tail further encloses ih =>
      obtain ⟨middle, isMiddle, rfl⟩ := isChain.of_encloses distinct encloses
      obtain ⟨shorter, isShorter, isLess⟩ := ih isMiddle
      exact ⟨shorter, isShorter, by simp; omega⟩

/-- An entity that has a scope chain is not around itself. -/
theorem not_encloses_self (distinct : (analysis.entities.map (·.id)).Nodup)
    {entity : Entity} {chain : List Entity} (isChain : ScopeChain analysis entity chain) :
    ¬ Relation.TransGen (Encloses analysis) entity entity := by
  intro around
  obtain ⟨shorter, isShorter, isLess⟩ := isChain.exists_shorter distinct around
  rw [isShorter.unique distinct isChain] at isLess
  exact Nat.lt_irrefl _ isLess

end ScopeChain

namespace WellFormed

variable {context : ProjectNaming} {analysis : AnalyzedFile}

/-- In a well-formed analysis the way along scopes from an entity has an end. -/
theorem exists_scopeChain (wellFormed : WellFormed context analysis) {entity : Entity}
    (declared : entity ∈ analysis.entities) : ∃ chain, ScopeChain analysis entity chain := by
  let around (outer inner : { entity // entity ∈ analysis.entities }) : Prop :=
    Relation.TransGen (Encloses analysis) outer.1 inner.1
  have transitive : IsTrans _ around := ⟨fun _ _ _ => Relation.TransGen.trans⟩
  have finite : Finite { entity // entity ∈ analysis.entities } :=
    (List.finite_toSet analysis.entities).to_subtype
  have irreflexive : Std.Irrefl around := ⟨fun entity => wellFormed.acyclic entity.1⟩
  have wellFounded : WellFounded around := Finite.wellFounded_of_trans_of_irrefl around
  suffices all : ∀ entity : { entity // entity ∈ analysis.entities },
      ∃ chain, ScopeChain analysis entity.1 chain from all ⟨entity, declared⟩
  intro entity
  induction entity using wellFounded.induction with
  | _ entity ih =>
      obtain ⟨entity, declared⟩ := entity
      cases scopeEq : entity.scope with
      | none => exact ⟨_, .outermost declared scopeEq⟩
      | some scope =>
          obtain ⟨outer, outerDeclared, rfl⟩ :=
            wellFormed.scopesDeclared entity declared scope scopeEq
          obtain ⟨chain, isChain⟩ := ih ⟨outer, outerDeclared⟩
            (.single ⟨outerDeclared, declared, scopeEq⟩)
          exact ⟨_, .inside declared scopeEq isChain⟩

end WellFormed

theorem GlobalSymbol.depth_le_of_extend {owner symbol : GlobalSymbol} {descriptor : Descriptor}
    (extended : owner.extend descriptor = .ok symbol) : symbol.depth ≤ maxDepth := by
  obtain ⟨written, -, rfl⟩ := extend_eq_ok extended
  unfold extend at extended
  split at extended
  · cases extended
  · rename_i notDeep
    exact Nat.not_lt.mp notDeep

namespace ChainSymbol

variable {context : ProjectNaming} {analysis : AnalyzedFile} {chain : List Entity}

theorem depth_eq_length {symbol : GlobalSymbol}
    (names : ChainSymbol context analysis chain (.global symbol)) :
    (∀ entity ∈ chain, entity.visibility = .exported) ∧ symbol.depth = chain.length := by
  cases names with
  | global allExported attributed written =>
      exact ⟨allExported, (forall₂_of_mapM written).length_eq.symm⟩

/-- Entities without a local one among them make up a global symbol. -/
theorem of_allExported {symbol : Symbol} (names : ChainSymbol context analysis chain symbol)
    (allExported : ∀ entity ∈ chain, entity.visibility = .exported) :
    ∃ outermost inner owner global, chain = outermost :: inner ∧
      context.registry.resolve (context.projectRoot.join
        (outermost.definedIn.getD ⟨analysis.relativePath⟩)) = .ok owner ∧
      (∀ entity ∈ chain, entity.IsWritable) ∧ symbol = .global global := by
  cases names with
  | inFile someLocal =>
      obtain ⟨entity, member, isLocal⟩ := someLocal
      cases isLocal.symm.trans (allExported entity member)
  | global _ attributed written =>
      exact ⟨_, _, _, _, rfl, attributed,
        fun entity member => Entity.exists_fragment_iff.mp (exists_of_mapM written member), rfl⟩

end ChainSymbol

namespace ProjectNaming

variable {context : ProjectNaming} {analysis : AnalyzedFile} {state : NamingState}

theorem depth_le_of_exportedSymbol {owner : Symbol} {entity : Entity} {symbol : GlobalSymbol}
    (composed : exportedSymbol analysis owner entity = .ok (.global symbol)) :
    symbol.depth ≤ maxDepth := by
  unfold exportedSymbol at composed
  split at composed
  · cases composed
  · split at composed
    · cases composed
    · rename_i extended
      cases composed
      obtain ⟨outer, inner, rfl, isInner, extended⟩ := Symbol.compose_eq_ok extended
      cases isInner
      exact GlobalSymbol.depth_le_of_extend extended

theorem exists_exportedSymbol_eq_ok {owner : GlobalSymbol} {entity : Entity}
    (writable : entity.IsWritable) (room : owner.depth + 1 ≤ maxDepth) :
    ∃ symbol, exportedSymbol analysis (.global owner) entity = .ok symbol := by
  obtain ⟨written, fits⟩ := Entity.exists_fragment_iff.mpr writable
  unfold Entity.fragment at fits
  unfold exportedSymbol
  cases made : Descriptor.make entity.name entity.kind entity.disambiguator with
  | error fault => simp [made] at fits
  | ok descriptor =>
      simp only [made] at fits
      have composed : Symbol.compose (.global owner) descriptor =
          .ok (.global ⟨owner.text ++ written, owner.depth + 1⟩) := by
        simp [Symbol.compose, GlobalSymbol.extend, Nat.not_lt.mpr room, fits, Except.map]
      simp only [composed]
      exact ⟨_, rfl⟩

theorem exists_packageRoot_eq_ok {entity : Entity} {owner : Owner}
    (attributed : context.registry.resolve (context.projectRoot.join
      (entity.definedIn.getD ⟨analysis.relativePath⟩)) = .ok owner) :
    ∃ root, context.packageRoot analysis entity = .ok (.global root) ∧ root.depth = 0 := by
  rw [← definingFile_eq] at attributed
  unfold packageRoot
  rw [attributed]
  cases owner with
  | project => exact ⟨_, rfl, rfl⟩
  | package dependency => exact ⟨_, rfl, rfl⟩

end ProjectNaming

namespace NamingRun

variable {context : ProjectNaming} {analysis : AnalyzedFile} {order : List Entity}
  {state : NamingState}

theorem depth_le (run : NamingRun context analysis order state) {id : EntityId}
    {symbol : GlobalSymbol} (given : state.symbol? id = some (.global symbol)) :
    symbol.depth ≤ maxDepth := by
  induction run with
  | start => cases given
  | name before declared unnamed afterScope named ih =>
      rcases ProjectNaming.nameEntity_eq_ok named with
        ⟨rfl, -⟩ | ⟨owner, composite, -, -, composed, rfl⟩
      · rw [NamingState.symbol?_assignLocal] at given
        split at given
        · cases given
        · exact ih given
      · rw [NamingState.symbol?_assign] at given
        split at given
        · cases given
          exact ProjectNaming.depth_le_of_exportedSymbol composed
        · exact ih given

/-- What a run has given to an entity is the symbol that its scope chain tells. -/
theorem told (run : NamingRun context analysis order state)
    (distinct : (analysis.entities.map (·.id)).Nodup) {entity : Entity}
    (member : entity ∈ order) :
    ∃ chain symbol, ScopeChain analysis entity chain ∧
      state.symbol? entity.id = some symbol ∧ ChainSymbol context analysis chain symbol := by
  obtain ⟨symbol, given⟩ := Option.isSome_iff_exists.mp
    ((run.isSome_symbol?_iff entity.id).mpr (List.mem_map_of_mem member))
  obtain ⟨other, chain, sameId, isChain, names⟩ := run.faithful entity.id symbol given
  obtain rfl := AnalyzedFile.eq_of_id_eq distinct isChain.declared (run.declared member) sameId
  exact ⟨chain, symbol, isChain, given, names⟩

end NamingRun

/-- Whether no symbol of an analysis has more segments than a symbol may have. -/
def ShallowExports (analysis : AnalyzedFile) : Prop :=
  ∀ entity chain, ScopeChain analysis entity chain →
    (∀ other ∈ chain, other.visibility = .exported) → chain.length ≤ maxDepth

namespace ProjectNaming

variable {context : ProjectNaming} {analysis : AnalyzedFile}

/-- What is named is well formed. -/
theorem wellFormed_of_nameFile {named : NamedFile}
    (success : context.nameFile analysis = .ok named) :
    WellFormed context analysis ∧ ShallowExports analysis := by
  obtain ⟨noDuplicate, last, occurrences, entitiesNamed, mapped, rfl⟩ :=
    nameFile_eq_ok success
  have distinct := AnalyzedFile.nodup_of_duplicate_eq_none noDuplicate
  obtain ⟨order, run, all⟩ := NamingRun.exists_of_nameEntities distinct entitiesNamed
  have told {entity : Entity} (declared : entity ∈ analysis.entities) :=
    run.told distinct (all.mem_iff.mpr declared)
  -- The chain that names an entity is the only one, so it is the given one.
  have toldBy {entity : Entity} {chain : List Entity}
      (isChain : ScopeChain analysis entity chain) :
      ∃ symbol, last.symbol? entity.id = some symbol ∧
        ChainSymbol context analysis chain symbol := by
    obtain ⟨other, symbol, isOther, given, names⟩ := told isChain.declared
    rw [isOther.unique distinct isChain] at names
    exact ⟨symbol, given, names⟩
  refine ⟨{ distinct, scopesDeclared := ?scopesDeclared, acyclic := ?acyclic,
            attributed := ?attributed, writable := ?writable, mentions := ?mentions },
    ?shallow⟩
  case scopesDeclared =>
    intro entity declared scope isScope
    obtain ⟨chain, -, isChain, -, -⟩ := told declared
    cases isChain with
    | outermost _ top => simp [top] at isScope
    | inside _ isOuter isAround =>
        exact ⟨_, isAround.declared, Option.some.inj (isOuter.symm.trans isScope)⟩
  case acyclic =>
    intro entity around
    obtain ⟨middle, -, ⟨-, declared, -⟩⟩ := Relation.TransGen.tail'_iff.mp around
    obtain ⟨chain, -, isChain, -, -⟩ := told declared
    exact isChain.not_encloses_self distinct around
  case attributed =>
    intro entity declared isExported top
    obtain ⟨symbol, -, names⟩ := toldBy (.outermost declared top)
    obtain ⟨outermost, inner, owner, -, isAlone, attributed, -, -⟩ :=
      names.of_allExported (by simpa using isExported)
    cases isAlone
    exact ⟨owner, attributed⟩
  case writable =>
    intro entity chain isChain allExported
    obtain ⟨symbol, -, names⟩ := toldBy isChain
    obtain ⟨-, -, -, -, -, -, writable, -⟩ := names.of_allExported allExported
    exact writable entity isChain.mem_self
  case mentions =>
    intro mention member
    obtain ⟨occurrence, found⟩ := exists_of_mapM mapped member
    obtain ⟨symbol, given, proper, -⟩ := Mention.toOccurrence_eq_ok found
    have isNamed := (run.isSome_symbol?_iff mention.entity).mp (by simp [given])
    obtain ⟨entity, isEntity, sameId⟩ := List.mem_map.mp isNamed
    exact ⟨⟨entity, run.declared isEntity, sameId⟩, proper⟩
  case shallow =>
    intro entity chain isChain allExported
    obtain ⟨symbol, given, names⟩ := toldBy isChain
    obtain ⟨-, -, -, global, -, -, -, rfl⟩ := names.of_allExported allExported
    rw [← names.depth_eq_length.2]
    exact run.depth_le given

section Success

variable {state : NamingState}

theorem nameEntity_of_owner {entity : Entity} {owner : Symbol}
    (isExported : entity.visibility = .exported)
    (owned : context.owner analysis state entity = .ok owner) :
    context.nameEntity analysis state entity =
      if owner.isGlobal then
        (exportedSymbol analysis owner entity).map (state.assign entity.id)
      else .ok (state.assignLocal entity.id) := by
  unfold nameEntity
  rw [isExported]
  change context.owner analysis state entity >>= _ = _
  rw [owned]
  cases owner with
  | global owner =>
      change (exportedSymbol analysis (.global owner) entity >>= fun symbol =>
        .ok (state.assign entity.id symbol)) = Except.map _ _
      cases exportedSymbol analysis (.global owner) entity with
      | error fault => rfl
      | ok symbol => rfl
  | empty => rfl
  | inFile number => rfl

/-- After its scope, a well-formed exported entity has an owner, and a segment fits
below it unless the owner is local. -/
theorem exists_owner_eq_ok (wellFormed : WellFormed context analysis)
    (shallow : ShallowExports analysis) (holds : state.Faithful context analysis)
    {entity : Entity} (declared : entity ∈ analysis.entities)
    (isExported : entity.visibility = .exported)
    (afterScope : ∀ scope, entity.scope = some scope → (state.symbol? scope).isSome = true) :
    ∃ owner, context.owner analysis state entity = .ok owner ∧
      ∀ global, owner = .global global →
        ∃ symbol, exportedSymbol analysis (.global global) entity = .ok symbol := by
  cases scopeEq : entity.scope with
  | none =>
      have isChain := ScopeChain.outermost declared scopeEq
      have allExported : ∀ other ∈ [entity], other.visibility = .exported := by
        simpa using isExported
      obtain ⟨owner, attributed⟩ := wellFormed.attributed entity declared isExported scopeEq
      obtain ⟨root, rooted, noDepth⟩ := exists_packageRoot_eq_ok attributed
      refine ⟨.global root, by simp only [ProjectNaming.owner, scopeEq, rooted], ?_⟩
      rintro global isGlobal
      cases isGlobal
      exact exists_exportedSymbol_eq_ok (wellFormed.writable _ _ isChain allExported)
        (by rw [noDepth]; decide)
  | some scope =>
      obtain ⟨scopeSymbol, scopeNamed⟩ :=
        Option.isSome_iff_exists.mp (afterScope scope scopeEq)
      obtain ⟨outer, around, rfl, isAround, told⟩ := holds scope scopeSymbol scopeNamed
      refine ⟨scopeSymbol, by simp [ProjectNaming.owner, scopeEq, scopeNamed], ?_⟩
      rintro global rfl
      -- The chain around a scope with a global symbol is exported, so the bound on
      -- exported chains leaves room for one more segment.
      obtain ⟨aroundExported, depthEq⟩ := told.depth_eq_length
      have isChain := ScopeChain.inside declared scopeEq isAround
      have allExported : ∀ other ∈ around ++ [entity], other.visibility = .exported := by
        intro other member
        rcases List.mem_append.mp member with member | member
        · exact aroundExported other member
        · exact List.mem_singleton.mp member ▸ isExported
      have fits := shallow _ _ isChain allExported
      rw [List.length_append, List.length_singleton, ← depthEq] at fits
      exact exists_exportedSymbol_eq_ok (wellFormed.writable _ _ isChain allExported) fits

/-- A well-formed entity is named after its scope. -/
theorem exists_nameEntity_eq_ok (wellFormed : WellFormed context analysis)
    (shallow : ShallowExports analysis) (holds : state.Faithful context analysis)
    {entity : Entity} (declared : entity ∈ analysis.entities)
    (afterScope : ∀ scope, entity.scope = some scope → (state.symbol? scope).isSome = true) :
    ∃ next, context.nameEntity analysis state entity = .ok next := by
  cases isExported : entity.visibility with
  | inFile => exact ⟨state.assignLocal entity.id, by simp only [nameEntity, isExported]⟩
  | exported =>
      obtain ⟨owner, owned, composes⟩ :=
        exists_owner_eq_ok wellFormed shallow holds declared isExported afterScope
      rw [nameEntity_of_owner isExported owned]
      cases owner with
      | global global =>
          obtain ⟨symbol, composed⟩ := composes global rfl
          rw [composed]
          exact ⟨_, rfl⟩
      | empty => exact ⟨_, rfl⟩
      | inFile number => exact ⟨_, rfl⟩

theorem exists_foldlM_nameEntity_eq_ok (wellFormed : WellFormed context analysis)
    (shallow : ShallowExports analysis) {walk : List Entity}
    (holds : state.Faithful context analysis)
    (ordered : OutermostFirst analysis (fun id => (state.symbol? id).isSome = true) walk) :
    ∃ next, walk.foldlM (context.nameEntity analysis) state = .ok next := by
  induction walk generalizing state with
  | nil => exact ⟨state, rfl⟩
  | cons entity walk ih =>
      obtain ⟨declared, afterScope, restOrdered⟩ := ordered
      obtain ⟨middle, first⟩ :=
        exists_nameEntity_eq_ok wellFormed shallow holds declared afterScope
      obtain ⟨next, rest⟩ := ih (holds.nameEntity declared afterScope first)
        (restOrdered.mono fun id => (isSome_symbol?_nameEntity first id).mpr)
      exact ⟨next, by rw [List.foldlM_cons, first]; exact rest⟩

/-- In a well-formed analysis the walks and the steps of the naming pass succeed
unless a scope chain is longer than a walk may be. -/
theorem exists_nameWithScopes_eq_ok (wellFormed : WellFormed context analysis)
    (shallow : ShallowExports analysis)
    (walkable : ∀ entity chain, ScopeChain analysis entity chain →
      chain.length ≤ AnalyzedFile.maxChain)
    (holds : state.Faithful context analysis) {entity : Entity}
    (declared : entity ∈ analysis.entities) :
    ∃ next, context.nameWithScopes analysis state entity = .ok next := by
  obtain ⟨chain, isChain⟩ := wellFormed.exists_scopeChain declared
  obtain ⟨walk, walked⟩ :
      ∃ walk, analysis.scopeChain state AnalyzedFile.maxChain [] entity.id = .ok walk :=
    AnalyzedFile.exists_scopeChain_eq_ok wellFormed.distinct isChain
      (walkable entity chain isChain) (by simp)
  have ordered := AnalyzedFile.outermostFirst_of_scopeChain (.nil _) walked
  obtain ⟨next, named⟩ := exists_foldlM_nameEntity_eq_ok wellFormed shallow holds ordered
  exact ⟨next, by rw [nameWithScopes, walked]; exact named⟩

end Success

/-- In a well-formed analysis nothing fails once the entities are named. -/
theorem exists_nameFile_of_nameEntities (wellFormed : WellFormed context analysis)
    {last : NamingState} (entitiesNamed : context.nameEntities analysis = .ok last) :
    ∃ named, context.nameFile analysis = .ok named := by
  have noDuplicate : analysis.duplicate? = none :=
    AnalyzedFile.duplicate_go_of_nodup wellFormed.distinct (by simp)
  obtain ⟨order, run, all⟩ := NamingRun.exists_of_nameEntities wellFormed.distinct entitiesNamed
  obtain ⟨occurrences, mapped⟩ : ∃ occurrences,
      analysis.occurrences.mapM (·.toOccurrence analysis last) = .ok occurrences := by
    refine exists_mapM_eq_ok fun mention member => ?_
    obtain ⟨⟨entity, declared, sameId⟩, proper⟩ := wellFormed.mentions mention member
    obtain ⟨chain, symbol, -, given, -⟩ :=
      run.told wellFormed.distinct (all.mem_iff.mpr declared)
    rw [sameId] at given
    simp only [Mention.toOccurrence, given, proper, if_true]
    exact ⟨_, rfl⟩
  simp only [nameFile, noDuplicate, entitiesNamed, mapped, bind, Except.bind]
  exact ⟨_, rfl⟩

/-- What is well formed is named, unless a scope chain is longer than a walk may
be. -/
theorem exists_nameFile_eq_ok (wellFormed : WellFormed context analysis)
    (shallow : ShallowExports analysis)
    (walkable : ∀ entity chain, ScopeChain analysis entity chain →
      chain.length ≤ AnalyzedFile.maxChain) :
    ∃ named, context.nameFile analysis = .ok named := by
  obtain ⟨last, entitiesNamed⟩ : ∃ last, context.nameEntities analysis = .ok last := by
    refine exists_foldlM_eq_ok (motive := (·.Faithful context analysis)) ?_ .empty
    intro entity declared state holds
    obtain ⟨next, named⟩ :=
      exists_nameWithScopes_eq_ok wellFormed shallow walkable holds declared
    exact ⟨next, named, holds.nameWithScopes named⟩
  exact exists_nameFile_of_nameEntities wellFormed entitiesNamed

/-- Naming succeeds on well-formed analyses only, and in these no symbol is too
deep.  It succeeds on all of them whose scope chains are no longer than a symbol
may be deep.  Nothing is asked of the descriptors, the length and the package of
entities that end up local. -/
theorem nameFile_wellFormed (context : ProjectNaming) (analysis : AnalyzedFile) :
    ((∃ named, context.nameFile analysis = .ok named) →
      WellFormed context analysis ∧
        ∀ entity chain, ScopeChain analysis entity chain →
          (∀ other ∈ chain, other.visibility = .exported) → chain.length ≤ maxDepth) ∧
    (WellFormed context analysis →
      (∀ entity chain, ScopeChain analysis entity chain → chain.length ≤ maxDepth) →
        ∃ named, context.nameFile analysis = .ok named) := by
  constructor
  · rintro ⟨named, success⟩
    exact wellFormed_of_nameFile success
  · intro wellFormed bounded
    refine exists_nameFile_eq_ok wellFormed (fun entity chain isChain _ => ?_)
      fun entity chain isChain => ?_
    · exact bounded entity chain isChain
    · exact (bounded entity chain isChain).trans (Nat.le_succ maxDepth)

end ProjectNaming

/-- A project with two dependencies that claim its only file. -/
def contestedNaming : ProjectNaming where
  ecosystem := .python
  manager := "pypi"
  project := ⟨"demo", "1.0"⟩
  projectRoot := ⟨"/demo"⟩
  registry := ⟨[⟨"left", "1", ⟨[⟨"/demo/shared.py"⟩], by simp⟩⟩,
    ⟨"right", "2", ⟨[⟨"/demo/shared.py"⟩], by simp⟩⟩], []⟩

def hiddenLoop : Entity :=
  ⟨1, "loop", .term, "a", .inFile, none, none, []⟩

def hiddenStep : Entity :=
  ⟨2, "step", .term, "b", .exported, some 1, none, []⟩

/-- A local entity of a contested file and one inside of it, both with
disambiguators that they could not be written with. -/
def hiddenAnalysis : AnalyzedFile where
  relativePath := "shared.py"
  language := "python"
  entities := [hiddenStep, hiddenLoop]
  occurrences := [⟨2, [0, 0, 4], [.definition]⟩]

theorem scopeChain_hiddenAnalysis {entity : Entity} {chain : List Entity}
    (isChain : ScopeChain hiddenAnalysis entity chain) :
    hiddenLoop ∈ chain ∧ chain.length ≤ 2 := by
  have members : ∀ other ∈ hiddenAnalysis.entities,
      other = hiddenStep ∨ other = hiddenLoop := by
    simp [hiddenAnalysis]
  cases isChain with
  | outermost declared top =>
      rcases members _ declared with rfl | rfl
      · cases top
      · simp
  | @inside entity outer around declared scope isAround =>
      rcases members _ declared with rfl | rfl
      · cases isAround with
        | outermost outerDeclared top =>
            rcases members _ outerDeclared with rfl | rfl
            · cases top
            · simp
        | inside outerDeclared outerScope =>
            rcases members _ outerDeclared with rfl | rfl
            · cases scope
            · cases outerScope
      · cases scope

theorem wellFormed_hiddenAnalysis : WellFormed contestedNaming hiddenAnalysis where
  distinct := by decide
  scopesDeclared := by simp [hiddenAnalysis, hiddenStep, hiddenLoop]
  acyclic entity around := by
    have distinct : (hiddenAnalysis.entities.map (·.id)).Nodup := by decide
    have loopChain : ScopeChain hiddenAnalysis hiddenLoop [hiddenLoop] :=
      .outermost (by simp [hiddenAnalysis]) rfl
    have stepChain : ScopeChain hiddenAnalysis hiddenStep [hiddenLoop, hiddenStep] :=
      .inside (by simp [hiddenAnalysis]) rfl loopChain
    obtain ⟨middle, -, ⟨-, declared, -⟩⟩ := Relation.TransGen.tail'_iff.mp around
    rcases List.mem_cons.mp declared with rfl | declared
    · exact stepChain.not_encloses_self distinct around
    · obtain rfl := List.mem_singleton.mp declared
      exact loopChain.not_encloses_self distinct around
  attributed := by simp [hiddenAnalysis, hiddenStep, hiddenLoop]
  writable entity chain isChain allExported := by
    cases allExported hiddenLoop (scopeChain_hiddenAnalysis isChain).1
  mentions := by simp [hiddenAnalysis, hiddenStep, hiddenLoop, Mention.hasProperRange]

theorem nameFile_wellFormed_of_hidden :
    WellFormed contestedNaming hiddenAnalysis ∧
      (∀ entity chain, ScopeChain hiddenAnalysis entity chain → chain.length ≤ maxDepth) ∧
      ∃ named, contestedNaming.nameFile hiddenAnalysis = .ok named := by
  have bounded : ∀ entity chain, ScopeChain hiddenAnalysis entity chain →
      chain.length ≤ maxDepth := fun entity chain isChain =>
    (scopeChain_hiddenAnalysis isChain).2.trans (by decide)
  exact ⟨wellFormed_hiddenAnalysis, bounded,
    (ProjectNaming.nameFile_wellFormed contestedNaming hiddenAnalysis).2
      wellFormed_hiddenAnalysis bounded⟩

end SymbolIndex
