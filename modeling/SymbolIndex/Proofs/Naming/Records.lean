import SymbolIndex.Proofs.Naming.Reordering
import SymbolIndex.Proofs.Naming.Roles

/-!
# Symbol records

A document has a record for each entity that has a global symbol and is defined
somewhere in the file.  The bits of a place tell the roles that are listed for it, so
every definition of something global that a reader of the document finds has a record.
-/

namespace SymbolIndex

open Fallible

variable {context : ProjectNaming} {analysis : AnalyzedFile}

/-- Whether a symbol is global and names an entity. -/
def NamesGlobally (context : ProjectNaming) (analysis : AnalyzedFile) (entity : Entity)
    (symbol : GlobalSymbol) : Prop :=
  ∃ chain, ScopeChain analysis entity chain ∧ ChainSymbol context analysis chain (.global symbol)

/-- Whether an entity has a global symbol and is defined in some place. -/
def HasRecord (context : ProjectNaming) (analysis : AnalyzedFile) (entity : Entity) : Prop :=
  (∃ symbol, NamesGlobally context analysis entity symbol) ∧
    ∃ mention ∈ analysis.occurrences, mention.entity = entity.id ∧ .definition ∈ mention.roles

/-- The declared entities that have a global symbol and are defined in some place. -/
noncomputable def ProjectNaming.recorded (context : ProjectNaming) (analysis : AnalyzedFile) :
    List Entity :=
  open scoped Classical in analysis.entities.filter (HasRecord context analysis ·)

/-- What the record of an entity tells. -/
structure Records (context : ProjectNaming) (analysis : AnalyzedFile) (entity : Entity)
    (information : SymbolInformation) : Prop where
  symbol : ∃ symbol, NamesGlobally context analysis entity symbol ∧ information.symbol = symbol.text
  displayName : information.displayName = entity.name
  documentation : information.documentation = entity.documentation

namespace NamingState

variable {state : NamingState} {entity : Entity}

theorem information?_eq_some {information : SymbolInformation} :
    state.information? analysis entity = some information ↔
      ∃ symbol, state.symbol? entity.id = some (.global symbol) ∧
        (∃ mention ∈ analysis.occurrences, mention.entity = entity.id ∧
          .definition ∈ mention.roles) ∧
        information = ⟨symbol.text, entity.documentation, entity.name⟩ := by
  have defined : (analysis.occurrences.any fun occurrence =>
      occurrence.entity = entity.id && occurrence.isDefinition) = true ↔
        ∃ mention ∈ analysis.occurrences, mention.entity = entity.id ∧
          .definition ∈ mention.roles := by
    simp [Mention.isDefinition]
  constructor
  · intro found
    unfold information? at found
    split at found
    · rename_i symbol given
      split at found
      · rename_i isDefined
        cases found
        exact ⟨symbol, given, defined.mp isDefined, rfl⟩
      · cases found
    · cases found
  · rintro ⟨symbol, given, isDefined, rfl⟩
    rw [information?, given]
    exact if_pos (defined.mpr isDefined)

/-- A scope chain tells a global symbol exactly when the entity has been given it. -/
theorem Faithful.namesGlobally_iff (holds : Faithful context analysis state)
    (distinct : (analysis.entities.map (·.id)).Nodup) (declared : entity ∈ analysis.entities)
    (named : (state.symbol? entity.id).isSome = true) {symbol : GlobalSymbol} :
    NamesGlobally context analysis entity symbol ↔
      state.symbol? entity.id = some (.global symbol) := by
  obtain ⟨given, isGiven⟩ := Option.isSome_iff_exists.mp named
  obtain ⟨other, chain, sameId, isChain, names⟩ := holds entity.id given isGiven
  obtain rfl := AnalyzedFile.eq_of_id_eq distinct isChain.declared declared sameId
  rw [isGiven, Option.some.injEq]
  constructor
  · rintro ⟨otherChain, isOther, otherNames⟩
    rw [isOther.unique distinct isChain] at otherNames
    exact otherNames.eq_global names rfl
  · rintro rfl
    exact ⟨chain, isChain, names⟩

end NamingState

/-- Items that are kept by a test and items for which something is found are the same if the
test tells whether something is found. -/
theorem forall₂_filter_filterMap {α β : Type} {test : α → Prop} [DecidablePred test]
    {find : α → Option β} {related : α → β → Prop} {items : List α}
    (found : ∀ item ∈ items, test item ↔ (find item).isSome = true)
    (relates : ∀ item ∈ items, ∀ result, find item = some result → related item result) :
    List.Forall₂ related (items.filter (test ·)) (items.filterMap find) := by
  induction items with
  | nil => exact .nil
  | cons item items ih =>
      obtain ⟨first, others⟩ := List.forall_mem_cons.mp found
      obtain ⟨firstRelates, othersRelate⟩ := List.forall_mem_cons.mp relates
      have rest := ih others othersRelate
      cases result : find item with
      | none =>
          have dropped : ¬ test item := by simp [first, result]
          rwa [List.filter_cons_of_neg (by simpa using dropped), List.filterMap_cons_none result]
      | some value =>
          have kept : test item := by simp [first, result]
          rw [List.filter_cons_of_pos (by simpa using kept), List.filterMap_cons_some result]
          exact .cons (firstRelates value result) rest

section Named

variable {last : NamingState} (holds : last.Faithful context analysis)
  (distinct : (analysis.entities.map (·.id)).Nodup)
  (given : ∀ entity ∈ analysis.entities, (last.symbol? entity.id).isSome = true)

include holds in
/-- A place shows an entity by the symbol that its scope chain tells, and this is global if
it is not the text of a number. -/
theorem exists_namesGlobally {symbol : Symbol} {id : EntityId}
    (isGiven : last.symbol? id = some symbol)
    (notLocal : ∀ number, symbol.text ≠ (Symbol.inFile number).text) :
    ∃ entity ∈ analysis.entities, entity.id = id ∧
      ∃ globalSymbol, symbol = .global globalSymbol := by
  obtain ⟨entity, chain, sameId, isChain, names⟩ := holds id symbol isGiven
  refine ⟨entity, isChain.declared, sameId, ?_⟩
  cases names with
  | inFile => exact absurd rfl (notLocal _)
  | global => exact ⟨_, rfl⟩

include holds distinct given in
/-- Once all entities are named, the records are those of the entities with a global symbol
and a definition. -/
theorem forall₂_records : List.Forall₂ (Records context analysis)
    (ProjectNaming.recorded context analysis)
    (analysis.entities.filterMap (last.information? analysis)) := by
  classical
  refine forall₂_filter_filterMap (fun entity declared => ?_)
    fun entity declared information found => ?_
  · rw [HasRecord, Option.isSome_iff_exists]
    simp only [holds.namesGlobally_iff distinct declared (given entity declared),
      NamingState.information?_eq_some]
    constructor
    · rintro ⟨⟨symbol, isGiven⟩, isDefined⟩
      exact ⟨_, symbol, isGiven, isDefined, rfl⟩
    · rintro ⟨_, symbol, isGiven, isDefined, rfl⟩
      exact ⟨⟨symbol, isGiven⟩, isDefined⟩
  · obtain ⟨symbol, isGiven, -, rfl⟩ := NamingState.information?_eq_some.mp found
    have names := (holds.namesGlobally_iff distinct declared (given entity declared)).mpr isGiven
    exact ⟨⟨symbol, names, rfl⟩, rfl, rfl⟩

variable {occurrences : List Occurrence}
  (mapped : analysis.occurrences.mapM (·.toOccurrence analysis last) = .ok occurrences)

include holds mapped in
theorem exists_record_of_definition {occurrence : Occurrence}
    (isOccurrence : occurrence ∈ occurrences)
    (isDefinition : Snapshot.hasRole occurrence.symbolRoles .definition = true)
    (notLocal : ∀ number, occurrence.symbol ≠ (Symbol.inFile number).text) :
    ∃ information ∈ analysis.entities.filterMap (last.information? analysis),
      information.symbol = occurrence.symbol := by
  obtain ⟨mention, isMention, found⟩ := (mem_iff_of_mapM mapped occurrence).mp isOccurrence
  obtain ⟨symbol, isGiven, -, rfl⟩ := Mention.toOccurrence_eq_ok found
  obtain ⟨entity, declared, sameId, globalSymbol, rfl⟩ :=
    exists_namesGlobally holds isGiven notLocal
  rw [Snapshot.hasRole_bits, decide_eq_true_iff] at isDefinition
  rw [← sameId] at isGiven
  have isRecord := NamingState.information?_eq_some.mpr
    ⟨globalSymbol, isGiven, ⟨mention, isMention, sameId.symm, isDefinition⟩, rfl⟩
  exact ⟨_, List.mem_filterMap.mpr ⟨entity, declared, isRecord⟩, rfl⟩

include mapped in
theorem exists_definition_of_record {information : SymbolInformation}
    (isRecord : information ∈ analysis.entities.filterMap (last.information? analysis)) :
    ∃ occurrence ∈ occurrences,
      Snapshot.hasRole occurrence.symbolRoles .definition = true ∧
        occurrence.symbol = information.symbol := by
  obtain ⟨entity, -, found⟩ := List.mem_filterMap.mp isRecord
  obtain ⟨symbol, isGiven, ⟨mention, isMention, sameId, isDefinition⟩, rfl⟩ :=
    NamingState.information?_eq_some.mp found
  obtain ⟨occurrence, shown⟩ := exists_of_mapM mapped isMention
  have isOccurrence := (mem_iff_of_mapM mapped occurrence).mpr ⟨mention, isMention, shown⟩
  obtain ⟨shownSymbol, isShown, -, rfl⟩ := Mention.toOccurrence_eq_ok shown
  rw [sameId, isGiven] at isShown
  cases isShown
  refine ⟨_, isOccurrence, ?_, rfl⟩
  rw [Snapshot.hasRole_bits, decide_eq_true_iff]
  exact isDefinition

include holds distinct given in
theorem text_ne_of_record {information : SymbolInformation}
    (isRecord : information ∈ analysis.entities.filterMap (last.information? analysis))
    (number : Nat) : information.symbol ≠ (Symbol.inFile number).text := by
  obtain ⟨entity, declared, found⟩ := List.mem_filterMap.mp isRecord
  obtain ⟨symbol, isGiven, -, rfl⟩ := NamingState.information?_eq_some.mp found
  obtain ⟨chain, -, names⟩ := (holds.namesGlobally_iff distinct declared
    (given entity declared)).mpr isGiven
  exact names.text_ne number

end Named

namespace ProjectNaming

/-- The records of a file are those of the entities with a global symbol and a definition,
in the order of their declaration, each with the symbol that the scope chain tells and with
the name and the documentation of its entity.  What a definition in the document shows has a
record unless it is local, every record is that of such a definition, and none is that of a
local symbol.  Bits tell the same roles as the list that they were made of. -/
theorem nameFile_symbols {named : NamedFile} (success : context.nameFile analysis = .ok named) :
    List.Forall₂ (Records context analysis) (context.recorded analysis) named.document.symbols ∧
      (∀ occurrence ∈ named.document.occurrences,
        Snapshot.hasRole occurrence.symbolRoles .definition = true →
        (∀ number, occurrence.symbol ≠ (Symbol.inFile number).text) →
          ∃ information ∈ named.document.symbols, information.symbol = occurrence.symbol) ∧
      (∀ information ∈ named.document.symbols,
        (∀ number, information.symbol ≠ (Symbol.inFile number).text) ∧
        ∃ occurrence ∈ named.document.occurrences,
          Snapshot.hasRole occurrence.symbolRoles .definition = true ∧
            occurrence.symbol = information.symbol) ∧
      ∀ roles : List Role,
        (∀ role, Snapshot.hasRole (Role.bits roles) role = decide (role ∈ roles)) ∧
        Snapshot.roleText (Role.bits roles) =
          String.intercalate " " ((if .definition ∈ roles then "definition" else "reference") ::
            (Snapshot.modifiers.filter fun (role, _) => role ∈ roles).map Prod.snd) := by
  obtain ⟨noDuplicate, last, occurrences, entitiesNamed, mapped, rfl⟩ := nameFile_eq_ok success
  have distinct := AnalyzedFile.nodup_of_duplicate_eq_none noDuplicate
  have holds := NamingState.Faithful.foldlM_nameWithScopes entitiesNamed
  obtain ⟨order, run, all⟩ := NamingRun.exists_of_nameEntities distinct entitiesNamed
  have given : ∀ entity ∈ analysis.entities, (last.symbol? entity.id).isSome = true := by
    intro entity declared
    exact (run.isSome_symbol?_iff entity.id).mpr
      (List.mem_map_of_mem (all.mem_iff.mpr declared))
  refine ⟨forall₂_records holds distinct given, fun occurrence isOccurrence =>
    exists_record_of_definition holds mapped isOccurrence, fun information isRecord =>
      ⟨text_ne_of_record holds distinct given isRecord,
        exists_definition_of_record mapped isRecord⟩, fun roles =>
      ⟨Snapshot.hasRole_bits roles, Snapshot.roleText_bits roles⟩⟩

end ProjectNaming

/-- A class that is defined twice after it has been read, a method of it that is never
defined, and a local variable with a definition. -/
def redefinedAnalysis : AnalyzedFile where
  relativePath := "app.py"
  language := "python"
  entities := [
    ⟨2, "run", .method, "", .exported, some 1, none, ["Runs."]⟩,
    ⟨1, "Widget", .type, "", .exported, none, none, ["A widget."]⟩,
    ⟨3, "loop", .term, "", .inFile, none, none, ["A loop."]⟩]
  occurrences := [⟨1, [0, 0, 3], [.read]⟩, ⟨1, [1, 0, 3], [.write, .definition, .write]⟩,
    ⟨2, [2, 0, 3], [.forwardDefinition]⟩, ⟨3, [3, 0, 3], [.definition]⟩,
    ⟨1, [4, 0, 3], [.definition]⟩]

theorem nameFile_symbols_of_redefined :
    ∃ named, widgetNaming.nameFile redefinedAnalysis = .ok named ∧
      named.document.symbols.map (·.documentation) = [["A widget."]] ∧
      List.Forall₂ (Records widgetNaming redefinedAnalysis)
        (widgetNaming.recorded redefinedAnalysis) named.document.symbols ∧
      ∀ information ∈ named.document.symbols, information.symbol ≠ "local 0" := by
  let widget : SymbolInformation :=
    ⟨"scip-python pypi demo 1.0 Widget#", ["A widget."], "Widget"⟩
  have success : widgetNaming.nameFile redefinedAnalysis = .ok
      ⟨⟨"python", "app.py",
        [⟨[0, 0, 3], widget.symbol, 8⟩, ⟨[1, 0, 3], widget.symbol, 5⟩,
          ⟨[2, 0, 3], widget.symbol ++ "run().", 64⟩, ⟨[3, 0, 3], "local 0", 1⟩,
          ⟨[4, 0, 3], widget.symbol, 1⟩],
        [widget]⟩, 1⟩ := by
    rfl
  obtain ⟨records, -, notLocal, -⟩ := ProjectNaming.nameFile_symbols success
  exact ⟨_, success, rfl, records, fun information isRecord =>
    (notLocal information isRecord).1 0⟩

end SymbolIndex
