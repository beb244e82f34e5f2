import SymbolIndex.Index.Basic
import SymbolIndex.Naming.Error
import SymbolIndex.Project.Identity
import SymbolIndex.Symbol.Ecosystem

/-!
# Naming an analysis

Every entity of an analysis gets a symbol, and the occurrences become a
document of the index.  An exported entity continues the symbol of its scope,
or the root of the package that owns its file.  An entity that is local, or
lies below a local one, gets a number, counted from zero in every file.
Entities are named in the order of their declaration, each after its scopes.
-/

namespace SymbolIndex

/-- What is shared by the naming of all files of a project. -/
structure ProjectNaming where
  ecosystem : Ecosystem
  /-- The package manager of global symbols. -/
  manager : String
  project : ProjectIdentity
  projectRoot : FilePath
  registry : Registry

/-- What has been named of a file. -/
structure NamingState where
  symbols : List (EntityId × Symbol) := []
  numbers : LocalNumbers := {}

namespace NamingState

def symbol? (state : NamingState) (entity : EntityId) : Option Symbol :=
  state.symbols.lookup entity

def assign (state : NamingState) (entity : EntityId) (symbol : Symbol) : NamingState :=
  { state with symbols := (entity, symbol) :: state.symbols }

def assignLocal (state : NamingState) (entity : EntityId) : NamingState :=
  let (symbol, numbers) := state.numbers.issue
  { symbols := (entity, symbol) :: state.symbols, numbers }

end NamingState

namespace AnalyzedFile

def entity? (analysis : AnalyzedFile) (id : EntityId) : Option Entity :=
  analysis.entities.find? (·.id = id)

def duplicate? (analysis : AnalyzedFile) : Option EntityId :=
  go [] analysis.entities
where
  /-- The first number of the entities that is among those seen or comes twice. -/
  go (seen : List EntityId) : List Entity → Option EntityId
    | [] => none
    | entity :: rest =>
      if seen.contains entity.id then some entity.id else go (entity.id :: seen) rest

/-- The most entities that are named in one walk along scopes. -/
def maxChain : Nat := maxDepth + 1

/-- The unnamed entities from `next` outwards in front of `inner`, which holds
those inside of it, outermost first.  At most `remaining` more may be added. -/
def scopeChain (analysis : AnalyzedFile) (state : NamingState) :
    Nat → List Entity → EntityId → Except NamingError (List Entity)
  | remaining, inner, next =>
    if (state.symbol? next).isSome then .ok inner
    else
      match analysis.entity? next with
      | none => .error (.unknownEntity analysis.relativePath next)
      | some entity =>
        if inner.any (·.id = next) then
          .error (.symbol analysis.relativePath (.grammar entity.name .scopeCycle))
        else
          match remaining with
          | 0 => .error (.symbol analysis.relativePath (.grammar entity.name .deepScope))
          | remaining + 1 =>
            match entity.scope with
            | none => .ok (entity :: inner)
            | some scope => scopeChain analysis state remaining (entity :: inner) scope

end AnalyzedFile

namespace ProjectNaming

def definingFile (context : ProjectNaming) (analysis : AnalyzedFile) (entity : Entity) :
    FilePath :=
  match entity.definedIn with
  | some file => context.projectRoot.join file
  | none => context.projectRoot.join ⟨analysis.relativePath⟩

def packageRoot (context : ProjectNaming) (analysis : AnalyzedFile) (entity : Entity) :
    Except NamingError Symbol :=
  let root := fun name version =>
    Symbol.global (context.ecosystem.packageRoot context.manager name version)
  match context.registry.resolve (context.definingFile analysis entity) with
  | .error conflict => .error (.attribution analysis.relativePath conflict)
  | .ok .project => .ok (root context.project.name context.project.version)
  | .ok (.package package) => .ok (root package.name package.version)

/-- The symbol that an entity is named in. -/
def owner (context : ProjectNaming) (analysis : AnalyzedFile) (state : NamingState)
    (entity : Entity) : Except NamingError Symbol :=
  match entity.scope with
  | some scope => .ok ((state.symbol? scope).getD .empty)
  | none => context.packageRoot analysis entity

def exportedSymbol (analysis : AnalyzedFile) (owner : Symbol) (entity : Entity) :
    Except NamingError Symbol :=
  match Descriptor.make entity.name entity.kind entity.disambiguator with
  | .error error => .error (.symbol analysis.relativePath error)
  | .ok descriptor =>
    match owner.compose descriptor with
    | .error error => .error (.symbol analysis.relativePath error)
    | .ok symbol => .ok symbol

/-- Names an entity whose scope has been named. -/
def nameEntity (context : ProjectNaming) (analysis : AnalyzedFile) (state : NamingState)
    (entity : Entity) : Except NamingError NamingState :=
  match entity.visibility with
  | .inFile => .ok (state.assignLocal entity.id)
  | .exported => do
    let owner ← context.owner analysis state entity
    if owner.isGlobal then
      return state.assign entity.id (← exportedSymbol analysis owner entity)
    else return state.assignLocal entity.id

/-- Names an entity and the scopes around it, outermost first, as far as they
have no names. -/
def nameWithScopes (context : ProjectNaming) (analysis : AnalyzedFile)
    (state : NamingState) (entity : Entity) : Except NamingError NamingState := do
  let chain ← analysis.scopeChain state AnalyzedFile.maxChain [] entity.id
  chain.foldlM (context.nameEntity analysis) state

def nameEntities (context : ProjectNaming) (analysis : AnalyzedFile) :
    Except NamingError NamingState :=
  analysis.entities.foldlM (context.nameWithScopes analysis) {}

end ProjectNaming

def Mention.toOccurrence (analysis : AnalyzedFile) (state : NamingState)
    (occurrence : Mention) : Except NamingError Occurrence :=
  match state.symbol? occurrence.entity with
  | none => .error (.unknownEntity analysis.relativePath occurrence.entity)
  | some symbol =>
    if occurrence.hasProperRange then
      .ok {
        range := occurrence.range
        symbol := symbol.text
        symbolRoles := Role.bits occurrence.roles }
    else .error (.invalidRange analysis.relativePath occurrence.entity occurrence.range)

namespace NamingState

/-- What is known of an entity's symbol, if it is global and an occurrence
defines it. -/
def information? (state : NamingState) (analysis : AnalyzedFile) (entity : Entity) :
    Option SymbolInformation :=
  match state.symbol? entity.id with
  | some (.global symbol) =>
    if analysis.occurrences.any fun occurrence =>
        occurrence.entity = entity.id && occurrence.isDefinition then
      some {
        symbol := symbol.text
        documentation := entity.documentation
        displayName := entity.name }
    else none
  | _ => none

end NamingState

structure NamedFile where
  document : Document
  localCount : Nat
  deriving DecidableEq

namespace ProjectNaming

/-- The document of an analysis. -/
def nameFile (context : ProjectNaming) (analysis : AnalyzedFile) :
    Except NamingError NamedFile :=
  match analysis.duplicate? with
  | some id => .error (.duplicateEntity analysis.relativePath id)
  | none => do
    let state ← context.nameEntities analysis
    let occurrences ← analysis.occurrences.mapM (·.toOccurrence analysis state)
    return {
      document := {
        language := analysis.language
        relativePath := analysis.relativePath
        occurrences
        symbols := analysis.entities.filterMap (state.information? analysis) }
      localCount := state.numbers.issued }

end ProjectNaming

end SymbolIndex
