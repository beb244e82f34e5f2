import SymbolIndex.Proofs.Naming.Numbering

/-!
# Naming and the order of declaration

The scope chains of an analysis do not depend on the order in which its entities
are declared, and neither does whether it is well formed.  So two orders of
declaration give the same global symbols, and local numbers that differ by a
renaming.  What does depend on the order is how far the walks of the naming pass
go, so only the length of scope chains can make a difference.
-/

namespace SymbolIndex

open Fallible

section Chains

variable {context : ProjectNaming} {analysis : AnalyzedFile} {entities : List Entity}

theorem ScopeChain.of_perm (perm : analysis.entities.Perm entities) {entity : Entity}
    {chain : List Entity} (isChain : ScopeChain analysis entity chain) :
    ScopeChain { analysis with entities } entity chain := by
  induction isChain with
  | outermost declared top => exact .outermost (perm.mem_iff.mp declared) top
  | inside declared scope around ih => exact .inside (perm.mem_iff.mp declared) scope ih

theorem scopeChain_iff_of_perm (perm : analysis.entities.Perm entities) {entity : Entity}
    {chain : List Entity} :
    ScopeChain { analysis with entities } entity chain ↔ ScopeChain analysis entity chain :=
  ⟨fun isChain => isChain.of_perm perm.symm, fun isChain => isChain.of_perm perm⟩

theorem encloses_iff_of_perm (perm : analysis.entities.Perm entities) {outer inner : Entity} :
    Encloses { analysis with entities } outer inner ↔ Encloses analysis outer inner := by
  simp only [Encloses, perm.mem_iff]

theorem WellFormed.of_perm (perm : analysis.entities.Perm entities)
    (wellFormed : WellFormed context analysis) :
    WellFormed context { analysis with entities } where
  distinct := (perm.map _).nodup_iff.mp wellFormed.distinct
  scopesDeclared entity declared scope isScope := by
    obtain ⟨outer, outerDeclared, isOuter⟩ :=
      wellFormed.scopesDeclared entity (perm.mem_iff.mpr declared) scope isScope
    exact ⟨outer, perm.mem_iff.mp outerDeclared, isOuter⟩
  acyclic entity around :=
    wellFormed.acyclic entity
      (around.lift id fun _ _ => (encloses_iff_of_perm perm).mp)
  attributed entity declared := wellFormed.attributed entity (perm.mem_iff.mpr declared)
  writable entity chain isChain :=
    wellFormed.writable entity chain ((scopeChain_iff_of_perm perm).mp isChain)
  mentions mention member := by
    obtain ⟨⟨entity, declared, sameId⟩, proper⟩ := wellFormed.mentions mention member
    exact ⟨⟨entity, perm.mem_iff.mp declared, sameId⟩, proper⟩

theorem belowLocal_perm (perm : analysis.entities.Perm entities) :
    analysis.belowLocal.Perm { analysis with entities }.belowLocal := by
  classical
  have same : ∀ entity,
      BelowLocal { analysis with entities } entity ↔ BelowLocal analysis entity := by
    simp only [BelowLocal, scopeChain_iff_of_perm perm, implies_true]
  simpa only [AnalyzedFile.belowLocal, same] using perm.filter _

end Chains

namespace ChainSymbol

variable {context : ProjectNaming} {analysis other : AnalyzedFile} {chain : List Entity}

/-- A scope chain has one global symbol at most, and no local one beside it. -/
theorem eq_global {symbol : GlobalSymbol} {otherSymbol : Symbol}
    (names : ChainSymbol context analysis chain (.global symbol))
    (otherNames : ChainSymbol context other chain otherSymbol)
    (samePath : other.relativePath = analysis.relativePath) :
    otherSymbol = .global symbol := by
  cases otherNames with
  | inFile someLocal =>
      obtain ⟨entity, member, isLocal⟩ := someLocal
      cases isLocal.symm.trans (names.depth_eq_length.1 entity member)
  | global _ otherAttributed otherWritten =>
      cases names with
      | global _ attributed written =>
          rw [samePath, attributed] at otherAttributed
          rw [written] at otherWritten
          cases otherAttributed
          cases otherWritten
          rfl

/-- The text of a global symbol is not the text of a number. -/
theorem text_ne {symbol : GlobalSymbol}
    (names : ChainSymbol context analysis chain (.global symbol)) (number : Nat) :
    symbol.text ≠ (Symbol.inFile number).text := by
  cases names with
  | global allExported attributed written =>
      exact Symbol.text_inFile_ne ⟨_, (String.toList_append).symm⟩ number

end ChainSymbol

namespace Symbol

/-- Two symbols that differ in a local number at most. -/
inductive Renamed (rename : Nat → Nat) : Symbol → Symbol → Prop where
  | inFile (number : Nat) : Renamed rename (.inFile number) (.inFile (rename number))
  | global (symbol : GlobalSymbol) (differs : ∀ number, symbol.text ≠ (inFile number).text) :
      Renamed rename (.global symbol) (.global symbol)

end Symbol

/-- Two occurrences in the same place that differ in a local number at most. -/
structure Occurrence.Renumbered (rename : Nat → Nat) (first second : Occurrence) : Prop where
  range : second.range = first.range
  symbolRoles : second.symbolRoles = first.symbolRoles
  symbol : (∃ number, first.symbol = (Symbol.inFile number).text ∧
      second.symbol = (Symbol.inFile (rename number)).text) ∨
    ((∀ number, first.symbol ≠ (Symbol.inFile number).text) ∧ second.symbol = first.symbol)

namespace Symbol.Renamed

variable {rename : Nat → Nat} {symbol otherSymbol : Symbol}

/-- Mentions of the two symbols in one place are written alike but for the
number. -/
theorem renumbered (renamed : symbol.Renamed rename otherSymbol) (range : List Int32)
    (roles : Int32) :
    Occurrence.Renumbered rename ⟨range, symbol.text, roles⟩
      ⟨range, otherSymbol.text, roles⟩ := by
  refine ⟨rfl, rfl, ?_⟩
  cases renamed with
  | inFile number => exact .inl ⟨number, rfl, rfl⟩
  | global symbol differs => exact .inr ⟨differs, rfl⟩

/-- The record of an entity does not tell the two symbols apart. -/
theorem information?_eq (renamed : symbol.Renamed rename otherSymbol)
    {state other : NamingState} (analysis : AnalyzedFile) {entity : Entity}
    (given : state.symbol? entity.id = some symbol)
    (otherGiven : other.symbol? entity.id = some otherSymbol) :
    other.information? analysis entity = state.information? analysis entity := by
  unfold NamingState.information?
  rw [given, otherGiven]
  cases renamed with
  | inFile number => rfl
  | global symbol differs => rfl

end Symbol.Renamed

namespace NamingRun

variable {context : ProjectNaming} {analysis : AnalyzedFile}
  {entities order otherOrder : List Entity} {state other : NamingState}

/-- Runs through the same entities, declared in two orders, give the same symbols
but for the local numbers. -/
theorem exists_renamed (perm : analysis.entities.Perm entities)
    (distinct : (analysis.entities.map (·.id)).Nodup)
    (run : NamingRun context analysis order state) (all : order.Perm analysis.entities)
    (otherRun : NamingRun context { analysis with entities } otherOrder other)
    (otherAll : otherOrder.Perm entities) :
    ∃ rename : Nat → Nat, Function.Injective rename ∧
      ∀ entity ∈ analysis.entities, ∃ symbol otherSymbol,
        state.symbol? entity.id = some symbol ∧
          other.symbol? entity.id = some otherSymbol ∧ symbol.Renamed rename otherSymbol := by
  have otherDistinct : (entities.map (·.id)).Nodup := (perm.map _).nodup_iff.mp distinct
  have told {entity : Entity} (declared : entity ∈ analysis.entities) :=
    run.told distinct (all.mem_iff.mpr declared)
  have otherTold {entity : Entity} (declared : entity ∈ analysis.entities) :=
    otherRun.told otherDistinct (otherAll.mem_iff.mpr (perm.mem_iff.mp declared))
  have dense := run.numbersDensely.of_perm all
  have otherDense := otherRun.numbersDensely.of_perm (otherAll.trans perm.symm)
  rw [run.issued_eq_length distinct all] at dense
  rw [otherRun.issued_eq_length otherDistinct otherAll, ← (belowLocal_perm perm).length_eq]
    at otherDense
  -- An entity that one run numbers has no global symbol in the other.
  have alike : ∀ entity ∈ analysis.entities, (state.number? entity.id).isSome = true →
      (other.number? entity.id).isSome = true := by
    intro entity declared numbered
    rw [run.isSome_number?_iff distinct (all.mem_iff.mpr declared)] at numbered
    rw [otherRun.isSome_number?_iff otherDistinct
      (otherAll.mem_iff.mpr (perm.mem_iff.mp declared))]
    simpa only [BelowLocal, scopeChain_iff_of_perm perm] using numbered
  obtain ⟨rename, injective, renames⟩ := dense.exists_rename otherDense alike
  refine ⟨rename, injective, fun entity declared => ?_⟩
  obtain ⟨chain, symbol, isChain, given, names⟩ := told declared
  obtain ⟨otherChain, otherSymbol, isOther, otherGiven, otherNames⟩ := otherTold declared
  rw [scopeChain_iff_of_perm perm] at isOther
  rw [isOther.unique distinct isChain] at otherNames
  refine ⟨symbol, otherSymbol, given, otherGiven, ?_⟩
  cases symbol with
  | empty => cases names
  | inFile number =>
      have renamed := renames entity declared number
        (NamingState.number?_eq_some_iff.mpr given)
      rw [NamingState.number?_eq_some_iff, otherGiven] at renamed
      cases renamed
      exact .inFile number
  | global symbol =>
      obtain rfl := names.eq_global otherNames rfl
      exact .global symbol names.text_ne

end NamingRun

namespace ProjectNaming

variable {context : ProjectNaming} {analysis : AnalyzedFile} {entities : List Entity}

/-- What can be named in one order of declaration can be named in every other, if
the scope chains with a local entity are no longer than a walk may be. -/
theorem exists_nameFile_of_perm (perm : analysis.entities.Perm entities)
    (walkable : ∀ entity chain, ScopeChain analysis entity chain →
      (∃ outer ∈ chain, outer.visibility = .inFile) →
        chain.length ≤ AnalyzedFile.maxChain)
    (success : ∃ named, context.nameFile analysis = .ok named) :
    ∃ named, context.nameFile { analysis with entities } = .ok named := by
  obtain ⟨named, success⟩ := success
  obtain ⟨wellFormed, shallow⟩ := wellFormed_of_nameFile success
  refine exists_nameFile_eq_ok (wellFormed.of_perm perm) ?_ ?_
  · intro entity chain isChain
    exact shallow entity chain ((scopeChain_iff_of_perm perm).mp isChain)
  · intro entity chain isChain
    rw [scopeChain_iff_of_perm perm] at isChain
    by_cases someLocal : ∃ outer ∈ chain, outer.visibility = .inFile
    · exact walkable entity chain isChain someLocal
    · have allExported : ∀ other ∈ chain, other.visibility = .exported := by
        intro other member
        cases seen : other.visibility with
        | exported => rfl
        | inFile => exact absurd ⟨other, member, seen⟩ someLocal
      exact (shallow entity chain isChain allExported).trans (Nat.le_succ maxDepth)

/-- The order in which the entities of a file are declared does not matter for
the global symbols and the records of its document, and changes its local numbers
by a renaming only.  It does not matter either for whether the file can be named,
if no scope chain with a local entity is longer than a walk may be. -/
theorem nameFile_of_perm (context : ProjectNaming) {analysis : AnalyzedFile}
    {entities : List Entity} (perm : analysis.entities.Perm entities) :
    ((∀ entity chain, ScopeChain analysis entity chain →
        (∃ outer ∈ chain, outer.visibility = .inFile) →
          chain.length ≤ AnalyzedFile.maxChain) →
      ((∃ named, context.nameFile analysis = .ok named) ↔
        ∃ named, context.nameFile { analysis with entities } = .ok named)) ∧
    ∀ first second, context.nameFile analysis = .ok first →
      context.nameFile { analysis with entities } = .ok second →
        second.document.language = first.document.language ∧
        second.document.relativePath = first.document.relativePath ∧
        second.document.symbols.Perm first.document.symbols ∧
        ∃ rename : Nat → Nat, Function.Injective rename ∧
          List.Forall₂ (Occurrence.Renumbered rename) first.document.occurrences
            second.document.occurrences := by
  constructor
  · intro walkable
    have otherWalkable : ∀ entity chain,
        ScopeChain { analysis with entities } entity chain →
          (∃ outer ∈ chain, outer.visibility = .inFile) →
            chain.length ≤ AnalyzedFile.maxChain := fun entity chain isChain =>
      walkable entity chain ((scopeChain_iff_of_perm perm).mp isChain)
    exact ⟨exists_nameFile_of_perm perm walkable,
      exists_nameFile_of_perm perm.symm otherWalkable⟩
  · intro first second firstNamed secondNamed
    obtain ⟨noDuplicate, state, occurrences, entitiesNamed, mapped, rfl⟩ :=
      nameFile_eq_ok firstNamed
    obtain ⟨noOtherDuplicate, other, otherOccurrences, otherNamed, otherMapped, rfl⟩ :=
      nameFile_eq_ok secondNamed
    have distinct := AnalyzedFile.nodup_of_duplicate_eq_none noDuplicate
    obtain ⟨order, run, all⟩ := NamingRun.exists_of_nameEntities distinct entitiesNamed
    obtain ⟨otherOrder, otherRun, otherAll⟩ := NamingRun.exists_of_nameEntities
      (AnalyzedFile.nodup_of_duplicate_eq_none noOtherDuplicate) otherNamed
    obtain ⟨rename, injective, renames⟩ :=
      NamingRun.exists_renamed perm distinct run all otherRun otherAll
    refine ⟨rfl, rfl, ?_, rename, injective, ?_⟩
    · have sameRecords : analysis.entities.filterMap (other.information? analysis) =
          analysis.entities.filterMap (state.information? analysis) := by
        refine List.filterMap_congr fun entity declared => ?_
        obtain ⟨symbol, otherSymbol, given, otherGiven, renamed⟩ := renames entity declared
        exact renamed.information?_eq analysis given otherGiven
      rw [← sameRecords]
      exact perm.symm.filterMap _
    · refine forall₂_of_mapM_mapM ?_ mapped otherMapped
      intro mention _ occurrence otherOccurrence found otherFound
      obtain ⟨symbol, given, -, rfl⟩ := Mention.toOccurrence_eq_ok found
      obtain ⟨otherSymbol, otherGiven, -, rfl⟩ := Mention.toOccurrence_eq_ok otherFound
      have isNamed := (run.isSome_symbol?_iff mention.entity).mp (by simp [given])
      obtain ⟨entity, member, sameId⟩ := List.mem_map.mp isNamed
      obtain ⟨renamedFrom, renamedTo, isFrom, isTo, renamed⟩ :=
        renames entity (all.mem_iff.mp member)
      rw [sameId, given] at isFrom
      rw [sameId, otherGiven] at isTo
      cases isFrom
      cases isTo
      exact renamed.renumbered mention.range (Role.bits mention.roles)

end ProjectNaming

/-- Two local variables of a file and one inside the second. -/
def siblingAnalysis : AnalyzedFile where
  relativePath := "app.py"
  language := "python"
  entities := [
    ⟨1, "a", .term, "", .inFile, none, none, []⟩,
    ⟨2, "b", .term, "", .inFile, none, none, []⟩,
    ⟨3, "c", .term, "", .exported, some 2, none, []⟩]
  occurrences := [⟨1, [0, 0, 1], [.definition]⟩, ⟨3, [1, 0, 1], [.read]⟩]

theorem nameFile_of_perm_of_siblings :
    let entities := siblingAnalysis.entities.reverse
    siblingAnalysis.entities.Perm entities ∧
      ∃ first second, widgetNaming.nameFile siblingAnalysis = .ok first ∧
        widgetNaming.nameFile { siblingAnalysis with entities } = .ok second ∧
        first.document.occurrences.map (·.symbol) = ["local 0", "local 2"] ∧
        second.document.occurrences.map (·.symbol) = ["local 2", "local 1"] ∧
        ∃ rename : Nat → Nat, Function.Injective rename ∧
          List.Forall₂ (Occurrence.Renumbered rename) first.document.occurrences
            second.document.occurrences := by
  intro entities
  have perm : siblingAnalysis.entities.Perm entities :=
    siblingAnalysis.entities.reverse_perm.symm
  have firstNamed : widgetNaming.nameFile siblingAnalysis =
      .ok ⟨⟨"python", "app.py", [⟨[0, 0, 1], "local 0", 1⟩, ⟨[1, 0, 1], "local 2", 8⟩],
        []⟩, 3⟩ := by
    rfl
  have secondNamed : widgetNaming.nameFile { siblingAnalysis with entities } =
      .ok ⟨⟨"python", "app.py", [⟨[0, 0, 1], "local 2", 1⟩, ⟨[1, 0, 1], "local 1", 8⟩],
        []⟩, 3⟩ := by
    rfl
  obtain ⟨-, -, -, renames⟩ :=
    (ProjectNaming.nameFile_of_perm widgetNaming perm).2 _ _ firstNamed secondNamed
  exact ⟨perm, _, _, firstNamed, secondNamed, rfl, rfl, renames⟩

end SymbolIndex
