import SymbolIndex.Proofs.Naming.Roles
import SymbolIndex.Proofs.Naming.ScopeChain
import SymbolIndex.Proofs.Naming.Step

/-!
# The naming pass follows the scopes

The symbol of an entity can be told from its scope chain alone: it is local when
an entity of the chain is, and otherwise the root of the package that owns the
outermost entity, followed by the written entities of the chain.  The naming pass
keeps symbols and names entities in the order of their declaration, but at every
moment each symbol that it has kept is the one told by the scope chain.
-/

namespace SymbolIndex

open Fallible

/-- What names the innermost entity of a scope chain.  Only the outermost entity
tells the package. -/
inductive ChainSymbol (context : ProjectNaming) (analysis : AnalyzedFile) :
    List Entity → Symbol → Prop where
  | inFile {chain : List Entity} {number : Nat}
      (someLocal : ∃ entity ∈ chain, entity.visibility = .inFile) :
      ChainSymbol context analysis chain (.inFile number)
  | global {outermost : Entity} {inner : List Entity} {owner : Owner}
      {fragments : List String}
      (allExported : ∀ entity ∈ outermost :: inner, entity.visibility = .exported)
      (attributed : context.registry.resolve (context.projectRoot.join
        (outermost.definedIn.getD ⟨analysis.relativePath⟩)) = .ok owner)
      (written : (outermost :: inner).mapM Entity.fragment = .ok fragments) :
      ChainSymbol context analysis (outermost :: inner) (.global
        ⟨(context.ecosystem.packageRoot context.manager
            (owner.identity context.project).name
            (owner.identity context.project).version).text ++ String.join fragments,
          fragments.length⟩)

theorem ProjectNaming.definingFile_eq (context : ProjectNaming) (analysis : AnalyzedFile)
    (entity : Entity) : context.definingFile analysis entity =
      context.projectRoot.join (entity.definedIn.getD ⟨analysis.relativePath⟩) := by
  unfold definingFile
  cases entity.definedIn with
  | none => rfl
  | some file => rfl

namespace ChainSymbol

variable {context : ProjectNaming} {analysis : AnalyzedFile}

theorem of_packageRoot {entity : Entity} {root : GlobalSymbol} {symbol : Symbol}
    (isExported : entity.visibility = .exported)
    (attributed : context.packageRoot analysis entity = .ok (.global root))
    (composed : ProjectNaming.exportedSymbol analysis (.global root) entity = .ok symbol) :
    ChainSymbol context analysis [entity] symbol := by
  obtain ⟨owner, resolved, isRoot⟩ := ProjectNaming.packageRoot_eq_ok attributed
  obtain ⟨written, fits, rfl⟩ := ProjectNaming.exportedSymbol_eq_ok composed
  cases isRoot
  rw [ProjectNaming.definingFile_eq] at resolved
  have writtenAlone : [entity].mapM Entity.fragment = .ok [written] := by
    rw [List.mapM_cons, fits]
    rfl
  have names := ChainSymbol.global (by simpa using isExported) resolved writtenAlone
  simpa [Ecosystem.packageRoot] using names

theorem append_exported {chain : List Entity} {owner : GlobalSymbol} {entity : Entity}
    {symbol : Symbol} (around : ChainSymbol context analysis chain (.global owner))
    (isExported : entity.visibility = .exported)
    (composed : ProjectNaming.exportedSymbol analysis (.global owner) entity = .ok symbol) :
    ChainSymbol context analysis (chain ++ [entity]) symbol := by
  obtain ⟨written, fits, rfl⟩ := ProjectNaming.exportedSymbol_eq_ok composed
  cases around with
  | @global outermost inner packageOwner fragments allExported attributed chainWritten =>
      have longerExported :
          ∀ other ∈ outermost :: (inner ++ [entity]), other.visibility = .exported := by
        intro other member
        rw [← List.cons_append, List.mem_append, List.mem_singleton] at member
        rcases member with member | rfl
        · exact allExported other member
        · exact isExported
      have longerWritten : (outermost :: (inner ++ [entity])).mapM Entity.fragment =
          .ok (fragments ++ [written]) := by
        rw [← List.cons_append, List.mapM_append, chainWritten, List.mapM_cons, fits]
        rfl
      have names := ChainSymbol.global longerExported attributed longerWritten
      simpa [String.join_append, String.append_assoc] using names

/-- Below a local symbol everything is local. -/
theorem append_of_not_isGlobal {chain : List Entity} {owner : Symbol}
    (around : ChainSymbol context analysis chain owner) (notGlobal : owner.isGlobal = false)
    (entity : Entity) (number : Nat) :
    ChainSymbol context analysis (chain ++ [entity]) (.inFile number) := by
  cases around with
  | inFile someLocal =>
      obtain ⟨outer, member, isLocal⟩ := someLocal
      exact .inFile ⟨outer, by simp [member], isLocal⟩
  | global => cases notGlobal

/-- Nothing that has a scope chain is named by the empty symbol. -/
theorem text_ne_empty {chain : List Entity} {symbol : Symbol}
    (names : ChainSymbol context analysis chain symbol) : symbol.text ≠ "" := by
  intro empty
  cases names with
  | inFile someLocal => simp [Symbol.text, String.append_eq_empty_iff] at empty
  | global allExported attributed written =>
      simp [Symbol.text, Ecosystem.packageRoot, Ecosystem.rootChars,
        String.append_eq_empty_iff] at empty

end ChainSymbol

/-- A moment of the naming pass at which every symbol that has been given is the
one told by the scope chain. -/
def NamingState.Faithful (context : ProjectNaming) (analysis : AnalyzedFile)
    (state : NamingState) : Prop :=
  ∀ id symbol, state.symbol? id = some symbol →
    ∃ entity chain, entity.id = id ∧ ScopeChain analysis entity chain ∧
      ChainSymbol context analysis chain symbol

namespace NamingState.Faithful

variable {context : ProjectNaming} {analysis : AnalyzedFile} {state next : NamingState}

theorem empty : Faithful context analysis {} := by
  intro id symbol named
  simp at named

theorem of_named (holds : Faithful context analysis state) {entity : Entity}
    {chain : List Entity} {symbol : Symbol} (isChain : ScopeChain analysis entity chain)
    (names : ChainSymbol context analysis chain symbol)
    (symbols : ∀ id, next.symbol? id =
      if id = entity.id then some symbol else state.symbol? id) :
    Faithful context analysis next := by
  intro id given named
  rw [symbols] at named
  split at named
  · rename_i isEntity
    cases named
    exact ⟨entity, chain, isEntity.symm, isChain, names⟩
  · exact holds id given named

/-- Naming an entity after its scope gives it the symbol that its scope chain
tells. -/
theorem nameEntity (holds : Faithful context analysis state) {entity : Entity}
    (declared : entity ∈ analysis.entities)
    (afterScope : ∀ scope, entity.scope = some scope → (state.symbol? scope).isSome = true)
    (named : context.nameEntity analysis state entity = .ok next) :
    Faithful context analysis next := by
  have step := ProjectNaming.nameEntity_eq_ok named
  cases scopeEq : entity.scope with
  | none =>
      have isChain := ScopeChain.outermost declared scopeEq
      rcases step with ⟨rfl, isLocal | ⟨owner, owned, notGlobal⟩⟩ |
        ⟨owner, symbol, isExported, owned, composed, rfl⟩
      · exact holds.of_named isChain (.inFile ⟨entity, by simp, isLocal⟩)
          (state.symbol?_assignLocal entity.id)
      · simp only [ProjectNaming.owner, scopeEq] at owned
        obtain ⟨packageOwner, -, rfl⟩ := ProjectNaming.packageRoot_eq_ok owned
        cases notGlobal
      · simp only [ProjectNaming.owner, scopeEq] at owned
        exact holds.of_named isChain (.of_packageRoot isExported owned composed)
          (state.symbol?_assign entity.id symbol)
  | some scope =>
      obtain ⟨scopeSymbol, scopeNamed⟩ := Option.isSome_iff_exists.mp (afterScope scope scopeEq)
      obtain ⟨outer, chain, rfl, outerChain, around⟩ := holds scope scopeSymbol scopeNamed
      have isChain := ScopeChain.inside declared scopeEq outerChain
      have ownerEq : context.owner analysis state entity = .ok scopeSymbol := by
        simp [ProjectNaming.owner, scopeEq, scopeNamed]
      rcases step with ⟨rfl, isLocal | ⟨owner, owned, notGlobal⟩⟩ |
        ⟨owner, symbol, isExported, owned, composed, rfl⟩
      · exact holds.of_named isChain (.inFile ⟨entity, by simp, isLocal⟩)
          (state.symbol?_assignLocal entity.id)
      · rw [ownerEq] at owned
        cases owned
        exact holds.of_named isChain (around.append_of_not_isGlobal notGlobal entity _)
          (state.symbol?_assignLocal entity.id)
      · rw [ownerEq] at owned
        cases owned
        exact holds.of_named isChain (around.append_exported isExported composed)
          (state.symbol?_assign entity.id symbol)

/-- Naming the first entities of a list in which each comes after its scope leaves
such a list. -/
theorem foldlM_nameEntity {before rest : List Entity}
    (holds : Faithful context analysis state)
    (ordered : OutermostFirst analysis (fun id => (state.symbol? id).isSome = true)
      (before ++ rest))
    (named : before.foldlM (context.nameEntity analysis) state = .ok next) :
    Faithful context analysis next ∧
      OutermostFirst analysis (fun id => (next.symbol? id).isSome = true) rest := by
  induction before generalizing state with
  | nil =>
      cases named
      exact ⟨holds, ordered⟩
  | cons entity before ih =>
      rw [List.foldlM_cons] at named
      obtain ⟨middle, first, named⟩ := bind_eq_ok.mp named
      obtain ⟨declared, afterScope, restOrdered⟩ := ordered
      have middleOrdered := restOrdered.mono
        fun id => (ProjectNaming.isSome_symbol?_nameEntity first id).mpr
      exact ih (holds.nameEntity declared afterScope first) middleOrdered named

theorem nameWithScopes (holds : Faithful context analysis state) {entity : Entity}
    (named : context.nameWithScopes analysis state entity = .ok next) :
    Faithful context analysis next := by
  obtain ⟨chain, walked, named⟩ := bind_eq_ok.mp named
  have ordered := AnalyzedFile.outermostFirst_of_scopeChain (.nil _) walked
  rw [← List.append_nil chain] at ordered
  exact (holds.foldlM_nameEntity ordered named).1

theorem foldlM_nameWithScopes {entities : List Entity}
    (named : entities.foldlM (context.nameWithScopes analysis) {} = .ok next) :
    Faithful context analysis next :=
  foldlM_induction (fun _ _ {_ _} holds step => nameWithScopes holds step) empty named

end NamingState.Faithful

/-- A moment of the naming pass at which an entity is about to be named. -/
def ProjectNaming.NamesNext (context : ProjectNaming) (analysis : AnalyzedFile)
    (state : NamingState) (entity : Entity) : Prop :=
  ∃ earlier declared later start before after,
    analysis.entities = earlier ++ declared :: later ∧
    earlier.foldlM (context.nameWithScopes analysis) {} = .ok start ∧
    analysis.scopeChain start AnalyzedFile.maxChain [] declared.id =
      .ok (before ++ entity :: after) ∧
    before.foldlM (context.nameEntity analysis) start = .ok state

namespace ProjectNaming

variable {context : ProjectNaming} {analysis : AnalyzedFile}

theorem exists_scope_symbol {state : NamingState} {entity : Entity}
    (names : context.NamesNext analysis state entity) {scope : EntityId}
    (isScope : entity.scope = some scope) :
    ∃ symbol, state.symbol? scope = some symbol ∧ symbol.text ≠ "" := by
  obtain ⟨earlier, declared, later, start, before, after, -, started, walked, named⟩ := names
  have ordered := AnalyzedFile.outermostFirst_of_scopeChain (.nil _) walked
  obtain ⟨holds, -, afterScope, -⟩ :=
    (NamingState.Faithful.foldlM_nameWithScopes started).foldlM_nameEntity ordered named
  obtain ⟨symbol, scopeNamed⟩ := Option.isSome_iff_exists.mp (afterScope scope isScope)
  obtain ⟨outer, chain, -, -, told⟩ := holds scope symbol scopeNamed
  exact ⟨symbol, scopeNamed, told.text_ne_empty⟩

/-- The document of a file has an occurrence for each place where an entity
occurs, in the same order, with the range of the place and with exactly the bits that
stand for its roles.  All occurrences of one entity have one symbol.  It is the one that
the scope chain of the entity tells, and it is never the empty one.  At no moment an
entity is named before its scope. -/
theorem nameFile_occurrences {named : NamedFile}
    (success : context.nameFile analysis = .ok named) :
    ∃ symbolOf : EntityId → Symbol,
      List.Forall₂
          (fun (mention : Mention) (occurrence : Occurrence) =>
            occurrence.range = mention.range ∧
            (∀ place, occurrence.symbolRoles.toBitVec.getLsbD place =
              decide (∃ role ∈ mention.roles, role.position = place)) ∧
            occurrence.symbol = (symbolOf mention.entity).text ∧
            occurrence.symbol ≠ "" ∧
            (∃ entity chain, entity.id = mention.entity ∧ ScopeChain analysis entity chain) ∧
            ∀ entity chain, entity.id = mention.entity → ScopeChain analysis entity chain →
              ChainSymbol context analysis chain (symbolOf mention.entity))
          analysis.occurrences named.document.occurrences ∧
        ∀ state entity scope, context.NamesNext analysis state entity →
          entity.scope = some scope →
            ∃ symbol, state.symbol? scope = some symbol ∧ symbol.text ≠ "" := by
  obtain ⟨noDuplicate, last, occurrences, entitiesNamed, mapped, rfl⟩ :=
    nameFile_eq_ok success
  have distinct := AnalyzedFile.nodup_of_duplicate_eq_none noDuplicate
  have holds := NamingState.Faithful.foldlM_nameWithScopes entitiesNamed
  refine ⟨fun id => (last.symbol? id).getD .empty, ?_, ?_⟩
  · refine (forall₂_of_mapM mapped).imp ?_
    intro mention occurrence found
    obtain ⟨symbol, symbolGiven, -, rfl⟩ := Mention.toOccurrence_eq_ok found
    obtain ⟨entity, chain, sameId, isChain, names⟩ := holds mention.entity symbol symbolGiven
    simp only [symbolGiven, Option.getD_some]
    refine ⟨trivial, Role.getLsbD_bits mention.roles, trivial, names.text_ne_empty,
      ⟨entity, chain, sameId, isChain⟩, ?_⟩
    intro other otherChain otherId isOther
    have sameEntity := AnalyzedFile.eq_of_id_eq distinct isChain.declared isOther.declared
      (sameId.trans otherId.symm)
    subst sameEntity
    rw [← isChain.unique distinct isOther]
    exact names
  · intro state entity scope names isScope
    exact exists_scope_symbol names isScope

end ProjectNaming

/-- A project with one dependency, which owns everything below `/lib`. -/
def widgetNaming : ProjectNaming where
  ecosystem := .python
  manager := "pypi"
  project := ⟨"demo", "1.0"⟩
  projectRoot := ⟨"/demo"⟩
  registry := ⟨[⟨"lib", "2.0", ⟨[⟨"/lib"⟩], by simp⟩⟩], []⟩

/-- A method declared before its class, which the dependency defines, and a
variable in a local scope of the method. -/
def widgetAnalysis : AnalyzedFile where
  relativePath := "app.py"
  language := "python"
  entities := [
    ⟨2, "run", .method, "", .exported, some 1, none, []⟩,
    ⟨1, "Widget", .type, "", .exported, none, some ⟨"/lib/widget.py"⟩, []⟩,
    ⟨4, "step", .term, "", .exported, some 3, none, []⟩,
    ⟨3, "loop", .term, "", .inFile, some 2, none, []⟩]
  occurrences := [⟨2, [0, 0, 3], [.definition]⟩, ⟨4, [1, 0, 1], [.read]⟩]

/-- The same file with a method that is written to where it is read. -/
def patchedAnalysis : AnalyzedFile :=
  { widgetAnalysis with
    occurrences := [⟨2, [0, 0, 3], [.definition]⟩, ⟨4, [1, 0, 1], [.read]⟩,
      ⟨2, [2, 0, 2, 3], [.read, .write, .read]⟩] }

/-- Both occurrences of the method have its symbol, and the last one has the bits of
reading and writing. -/
theorem nameFile_occurrences_of_widget :
    ∃ named, widgetNaming.nameFile patchedAnalysis = .ok named ∧
      named.document.occurrences.map (·.symbol) =
        ["scip-python pypi lib 2.0 Widget#run().", "local 1",
          "scip-python pypi lib 2.0 Widget#run()."] ∧
      named.document.occurrences.map (·.symbolRoles) = [1, 8, 12] ∧
      ∃ symbol : Symbol, symbol.text = "scip-python pypi lib 2.0 Widget#run()." ∧
        ∀ entity chain, entity.id = 2 → ScopeChain patchedAnalysis entity chain →
          ChainSymbol widgetNaming patchedAnalysis chain symbol := by
  let run : SymbolInformation := ⟨"scip-python pypi lib 2.0 Widget#run().", [], "run"⟩
  have success : widgetNaming.nameFile patchedAnalysis = .ok
      ⟨⟨"python", "app.py", [⟨[0, 0, 3], run.symbol, 1⟩, ⟨[1, 0, 1], "local 1", 8⟩,
        ⟨[2, 0, 2, 3], run.symbol, 12⟩], [run]⟩, 2⟩ := by
    rfl
  obtain ⟨symbolOf, places, -⟩ := ProjectNaming.nameFile_occurrences success
  cases places with
  | cons first rest =>
      obtain ⟨-, -, isSymbol, -, -, told⟩ := first
      exact ⟨_, success, rfl, rfl, symbolOf 2, isSymbol.symm, told⟩

end SymbolIndex
