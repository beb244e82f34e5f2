import SymbolIndex.Naming.Basic
import SymbolIndex.Proofs.Fallible
import SymbolIndex.Proofs.Symbol.Containment

/-!
# One step of the naming pass

A step gives one entity a symbol: the next local symbol, or the symbol of its
owner with one more written descriptor.  The occurrences of a document are made from
the symbols.
-/

namespace SymbolIndex

open Fallible

/-- An entity as it is written in global symbols. -/
def Entity.fragment (entity : Entity) : Except SymbolFault String :=
  match Descriptor.make entity.name entity.kind entity.disambiguator with
  | .error error => .error error
  | .ok descriptor => descriptor.fragment

def Owner.identity (project : ProjectIdentity) : Owner → ProjectIdentity
  | .project => project
  | .package dependency => ⟨dependency.name, dependency.version⟩

namespace NamingState

@[simp]
theorem symbol?_empty (id : EntityId) : ({} : NamingState).symbol? id = none :=
  rfl

@[simp]
theorem symbol?_assign (state : NamingState) (entity : EntityId) (symbol : Symbol)
    (id : EntityId) :
    (state.assign entity symbol).symbol? id =
      if id = entity then some symbol else state.symbol? id := by
  by_cases same : id = entity
  · simp [symbol?, assign, same]
  · have differs : (id == entity) = false := by simpa using same
    simp [symbol?, assign, List.lookup_cons, differs, same]

@[simp]
theorem symbol?_assignLocal (state : NamingState) (entity id : EntityId) :
    (state.assignLocal entity).symbol? id =
      if id = entity then some (.inFile state.numbers.issued) else state.symbol? id := by
  by_cases same : id = entity
  · simp [symbol?, assignLocal, LocalNumbers.issue, same]
  · have differs : (id == entity) = false := by simpa using same
    simp [symbol?, assignLocal, List.lookup_cons, differs, same]

end NamingState

namespace ProjectNaming

variable {context : ProjectNaming} {analysis : AnalyzedFile} {state next : NamingState}

theorem packageRoot_eq_ok {entity : Entity} {symbol : Symbol}
    (attributed : context.packageRoot analysis entity = .ok symbol) :
    ∃ owner, context.registry.resolve (context.definingFile analysis entity) = .ok owner ∧
      symbol = .global (context.ecosystem.packageRoot context.manager
        (owner.identity context.project).name (owner.identity context.project).version) := by
  unfold packageRoot at attributed
  split at attributed
  · cases attributed
  · rename_i resolved
    cases attributed
    exact ⟨.project, resolved, rfl⟩
  · rename_i package resolved
    cases attributed
    exact ⟨.package package, resolved, rfl⟩

theorem exportedSymbol_eq_ok {owner : GlobalSymbol} {entity : Entity} {symbol : Symbol}
    (composed : exportedSymbol analysis (.global owner) entity = .ok symbol) :
    ∃ written, entity.fragment = .ok written ∧
      symbol = .global ⟨owner.text ++ written, owner.depth + 1⟩ := by
  unfold exportedSymbol at composed
  split at composed
  · cases composed
  · rename_i descriptor made
    split at composed
    · cases composed
    · rename_i result extended
      cases composed
      obtain ⟨outer, inner, isOwner, rfl, extended⟩ := Symbol.compose_eq_ok extended
      cases isOwner
      obtain ⟨written, fits, rfl⟩ := GlobalSymbol.extend_eq_ok extended
      exact ⟨written, by simpa [Entity.fragment, made] using fits, rfl⟩

/-- What naming an entity can do. -/
theorem nameEntity_eq_ok {entity : Entity}
    (named : context.nameEntity analysis state entity = .ok next) :
    (next = state.assignLocal entity.id ∧
        (entity.visibility = .inFile ∨ ∃ owner,
          context.owner analysis state entity = .ok owner ∧ owner.isGlobal = false)) ∨
      ∃ owner symbol, entity.visibility = .exported ∧
        context.owner analysis state entity = .ok (.global owner) ∧
        exportedSymbol analysis (.global owner) entity = .ok symbol ∧
        next = state.assign entity.id symbol := by
  unfold nameEntity at named
  split at named
  · rename_i isLocal
    cases named
    exact .inl ⟨rfl, .inl isLocal⟩
  · rename_i isExported
    obtain ⟨owner, owned, named⟩ := bind_eq_ok.mp named
    cases owner with
    | global owner =>
        obtain ⟨symbol, composed, named⟩ := bind_eq_ok.mp named
        cases named
        exact .inr ⟨owner, symbol, isExported, owned, composed, rfl⟩
    | empty =>
        cases named
        exact .inl ⟨rfl, .inr ⟨_, owned, rfl⟩⟩
    | inFile number =>
        cases named
        exact .inl ⟨rfl, .inr ⟨_, owned, rfl⟩⟩

theorem exists_symbol?_nameEntity {entity : Entity}
    (named : context.nameEntity analysis state entity = .ok next) :
    ∃ symbol, ∀ id, next.symbol? id =
      if id = entity.id then some symbol else state.symbol? id := by
  rcases nameEntity_eq_ok named with ⟨rfl, -⟩ | ⟨owner, symbol, -, -, -, rfl⟩
  · exact ⟨_, state.symbol?_assignLocal entity.id⟩
  · exact ⟨symbol, state.symbol?_assign entity.id symbol⟩

theorem isSome_symbol?_nameEntity {entity : Entity}
    (named : context.nameEntity analysis state entity = .ok next) (id : EntityId) :
    (next.symbol? id).isSome = true ↔ id = entity.id ∨ (state.symbol? id).isSome = true := by
  obtain ⟨symbol, symbols⟩ := exists_symbol?_nameEntity named
  rw [symbols]
  by_cases same : id = entity.id
  · simp [same]
  · simp [same]

theorem nameFile_eq_ok {named : NamedFile} (success : context.nameFile analysis = .ok named) :
    analysis.duplicate? = none ∧ ∃ last occurrences,
      context.nameEntities analysis = .ok last ∧
      analysis.occurrences.mapM (·.toOccurrence analysis last) = .ok occurrences ∧
      named = ⟨⟨analysis.language, analysis.relativePath, occurrences,
        analysis.entities.filterMap (last.information? analysis)⟩, last.numbers.issued⟩ := by
  unfold nameFile at success
  split at success
  · cases success
  · rename_i distinct
    obtain ⟨last, entitiesNamed, success⟩ := bind_eq_ok.mp success
    obtain ⟨occurrences, mapped, success⟩ := bind_eq_ok.mp success
    cases success
    exact ⟨distinct, last, occurrences, entitiesNamed, mapped, rfl⟩

end ProjectNaming

theorem Mention.toOccurrence_eq_ok {analysis : AnalyzedFile} {state : NamingState}
    {mention : Mention} {occurrence : Occurrence}
    (found : mention.toOccurrence analysis state = .ok occurrence) :
    ∃ symbol, state.symbol? mention.entity = some symbol ∧
      mention.hasProperRange = true ∧
      occurrence = ⟨mention.range, symbol.text, Role.bits mention.roles⟩ := by
  unfold toOccurrence at found
  split at found
  · cases found
  · rename_i symbol named
    split at found
    · rename_i proper
      cases found
      exact ⟨symbol, named, proper, rfl⟩
    · cases found

end SymbolIndex
