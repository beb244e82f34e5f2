import SymbolIndex.Proofs.Index.Assembly
import SymbolIndex.Proofs.Naming.WellFormed

/-!
# Local numbers

An entity with a local one in its scope chain gets a number.  Along a run of the
naming pass the numbers are 0, 1, 2 and so on, and since a scope is named before
what it encloses, they also increase from the outside inwards.  A number is
written with one space and a global symbol with more, so their texts differ.
-/

namespace SymbolIndex

open Fallible

/-- Whether the numbers below `count` are each the number of one of the items,
and there are no others. -/
structure NumbersDensely {α : Type} (number? : α → Option Nat) (items : List α)
    (count : Nat) : Prop where
  lt_iff : ∀ number, number < count ↔ ∃ item ∈ items, number? item = some number
  unique : ∀ item ∈ items, ∀ other ∈ items, ∀ number,
    number? item = some number → number? other = some number → item = other

namespace NumbersDensely

variable {α : Type} {number? other? : α → Option Nat} {items : List α} {count : Nat}

theorem of_filterMap_eq_range (given : items.filterMap number? = List.range count) :
    NumbersDensely number? items count := by
  constructor
  · intro number
    rw [← List.mem_range, ← given, List.mem_filterMap]
  · intro item member other otherMember number isNumber isOther
    have apart : (items.filterMap number?).Pairwise (· ≠ ·) := by
      rw [given]
      exact List.nodup_range
    rw [List.pairwise_filterMap] at apart
    have symmetric : Std.Symm fun first second : α => ∀ number, number? first = some number →
        ∀ other, number? second = some other → number ≠ other :=
      ⟨fun _ _ distinct number isNumber other isOther =>
        (distinct other isOther number isNumber).symm⟩
    by_contra differs
    exact apart.forall member otherMember differs number isNumber number isOther rfl

theorem of_perm {others : List α} (dense : NumbersDensely number? items count)
    (same : items.Perm others) : NumbersDensely number? others count := by
  constructor
  · intro number
    simpa only [same.mem_iff] using dense.lt_iff number
  · intro item member other otherMember
    exact dense.unique item (same.mem_iff.mpr member) other (same.mem_iff.mpr otherMember)

/-- Two ways to number the same items densely differ by renaming the numbers. -/
theorem exists_rename (dense : NumbersDensely number? items count)
    (otherDense : NumbersDensely other? items count)
    (alike : ∀ item ∈ items, (number? item).isSome = true → (other? item).isSome = true) :
    ∃ rename : Nat → Nat, Function.Injective rename ∧
      ∀ item ∈ items, ∀ number, number? item = some number →
        other? item = some (rename number) := by
  have renamed : ∀ number, ∃ renamed, (count ≤ number → renamed = number) ∧
      (number < count → ∃ item ∈ items, number? item = some number ∧
        other? item = some renamed) := by
    intro number
    by_cases inside : number < count
    · obtain ⟨item, member, isNumber⟩ := (dense.lt_iff number).mp inside
      obtain ⟨renamed, isRenamed⟩ :=
        Option.isSome_iff_exists.mp (alike item member (by simp [isNumber]))
      exact ⟨renamed, fun outside => absurd inside (Nat.not_lt.mpr outside),
        fun _ => ⟨item, member, isNumber, isRenamed⟩⟩
    · exact ⟨number, fun _ => rfl, fun isInside => absurd isInside inside⟩
  choose rename outside inside using renamed
  have staysInside : ∀ number, number < count → rename number < count := by
    intro number isInside
    obtain ⟨item, member, -, isRenamed⟩ := inside number isInside
    exact (otherDense.lt_iff _).mpr ⟨item, member, isRenamed⟩
  refine ⟨rename, fun first second same => ?_, fun item member number isNumber => ?_⟩
  · by_cases firstInside : first < count
    · by_cases secondInside : second < count
      · obtain ⟨item, member, isFirst, renamedFirst⟩ := inside first firstInside
        obtain ⟨other, otherMember, isSecond, renamedSecond⟩ := inside second secondInside
        rw [← same] at renamedSecond
        obtain rfl :=
          otherDense.unique item member other otherMember _ renamedFirst renamedSecond
        exact Option.some.inj (isFirst.symm.trans isSecond)
      · have := staysInside first firstInside
        have := outside second (Nat.not_lt.mp secondInside)
        omega
    · by_cases secondInside : second < count
      · have := staysInside second secondInside
        have := outside first (Nat.not_lt.mp firstInside)
        omega
      · rw [← outside first (Nat.not_lt.mp firstInside),
          ← outside second (Nat.not_lt.mp secondInside), same]
  · obtain ⟨other, otherMember, isOther, isRenamed⟩ :=
      inside number ((dense.lt_iff number).mpr ⟨item, member, isNumber⟩)
    rw [dense.unique item member other otherMember number isNumber isOther]
    exact isRenamed

end NumbersDensely

namespace NamingState

/-- The local number of an entity. -/
def number? (state : NamingState) (id : EntityId) : Option Nat :=
  match state.symbol? id with
  | some (.inFile number) => some number
  | _ => none

theorem number?_eq_some_iff {state : NamingState} {id : EntityId} {number : Nat} :
    state.number? id = some number ↔ state.symbol? id = some (.inFile number) := by
  unfold number?
  split
  · rename_i given
    simp [given]
  · rename_i notLocal
    simp only [reduceCtorEq, false_iff]
    exact notLocal number

@[simp]
theorem issued_assignLocal (state : NamingState) (entity : EntityId) :
    (state.assignLocal entity).numbers.issued = state.numbers.issued + 1 :=
  rfl

@[simp]
theorem numbers_assign (state : NamingState) (entity : EntityId) (symbol : Symbol) :
    (state.assign entity symbol).numbers = state.numbers :=
  rfl

@[simp]
theorem number?_assignLocal (state : NamingState) (entity id : EntityId) :
    (state.assignLocal entity).number? id =
      if id = entity then some state.numbers.issued else state.number? id := by
  unfold number?
  rw [symbol?_assignLocal]
  by_cases same : id = entity <;> simp [same]

@[simp]
theorem number?_assign_global (state : NamingState) (entity : EntityId)
    (symbol : GlobalSymbol) (id : EntityId) :
    (state.assign entity (.global symbol)).number? id =
      if id = entity then none else state.number? id := by
  unfold number?
  rw [symbol?_assign]
  by_cases same : id = entity <;> simp [same]

end NamingState

/-- Whether an entity or one around it is local. -/
def BelowLocal (analysis : AnalyzedFile) (entity : Entity) : Prop :=
  ∃ chain, ScopeChain analysis entity chain ∧ ∃ outer ∈ chain, outer.visibility = .inFile

/-- The declared entities that are local or have a local one around them. -/
noncomputable def AnalyzedFile.belowLocal (analysis : AnalyzedFile) : List Entity :=
  open scoped Classical in analysis.entities.filter (BelowLocal analysis ·)

namespace NamingRun

variable {context : ProjectNaming} {analysis : AnalyzedFile} {order : List Entity}
  {state : NamingState}

/-- Along a run the local numbers are given one after the other. -/
theorem filterMap_number?_eq_range (run : NamingRun context analysis order state) :
    order.filterMap (fun entity => state.number? entity.id) =
      List.range state.numbers.issued := by
  induction run with
  | start => rfl
  | @name order state next entity before declared unnamed afterScope named ih =>
      have apart : ∀ other ∈ order, other.id ≠ entity.id := by
        intro other member sameId
        rw [before.symbol?_eq_none_iff] at unnamed
        exact unnamed (sameId ▸ List.mem_map_of_mem member)
      rcases ProjectNaming.nameEntity_eq_ok named with
        ⟨rfl, -⟩ | ⟨owner, symbol, -, -, composed, rfl⟩
      · have earlier : order.filterMap
              (fun other => (state.assignLocal entity.id).number? other.id) =
            order.filterMap (fun other => state.number? other.id) :=
          List.filterMap_congr fun other member => by simp [apart other member]
        rw [List.filterMap_append, earlier, ih]
        simp [List.range_succ]
      · obtain ⟨written, -, rfl⟩ := ProjectNaming.exportedSymbol_eq_ok composed
        have earlier : order.filterMap (fun other => (state.assign entity.id
              (.global ⟨owner.text ++ written, owner.depth + 1⟩)).number? other.id) =
            order.filterMap (fun other => state.number? other.id) :=
          List.filterMap_congr fun other member => by simp [apart other member]
        rw [List.filterMap_append, earlier, ih]
        simp

theorem numbersDensely (run : NamingRun context analysis order state) :
    NumbersDensely (fun entity => state.number? entity.id) order state.numbers.issued :=
  .of_filterMap_eq_range run.filterMap_number?_eq_range

/-- The entities with a number are those with a local one in their scope chain. -/
theorem isSome_number?_iff (run : NamingRun context analysis order state)
    (distinct : (analysis.entities.map (·.id)).Nodup) {entity : Entity}
    (member : entity ∈ order) :
    (state.number? entity.id).isSome = true ↔ BelowLocal analysis entity := by
  obtain ⟨chain, symbol, isChain, given, names⟩ := run.told distinct member
  cases names with
  | inFile someLocal =>
      exact ⟨fun _ => ⟨chain, isChain, someLocal⟩, fun _ => by simp [NamingState.number?, given]⟩
  | global allExported attributed written =>
      refine ⟨fun numbered => by simp [NamingState.number?, given] at numbered, ?_⟩
      rintro ⟨other, isOther, outer, outerMember, isLocal⟩
      rw [isOther.unique distinct isChain] at outerMember
      cases isLocal.symm.trans (allExported outer outerMember)

/-- A run names the scopes around an entity one after the other. -/
theorem sublist_of_scopeChain (run : NamingRun context analysis order state)
    (distinct : (analysis.entities.map (·.id)).Nodup) {entity : Entity} {chain : List Entity}
    (isChain : ScopeChain analysis entity chain) (member : entity ∈ order) :
    chain.Sublist order := by
  induction run generalizing entity chain with
  | start => cases member
  | @name order state next last before declared unnamed afterScope named ih =>
      rcases List.mem_append.mp member with member | member
      · exact (ih isChain member).trans (List.sublist_append_left _ _)
      · obtain rfl := List.mem_singleton.mp member
        cases isChain with
        | outermost => exact List.sublist_append_right _ _
        | @inside _ outer around _ scope isAround =>
            have scopeNamed := (before.isSome_symbol?_iff outer.id).mp (afterScope _ scope)
            obtain ⟨other, isOther, sameId⟩ := List.mem_map.mp scopeNamed
            obtain rfl := AnalyzedFile.eq_of_id_eq distinct (before.declared isOther)
              isAround.declared sameId
            exact (ih isAround isOther).append_right _

/-- Along a scope chain the numbers increase. -/
theorem pairwise_number? (run : NamingRun context analysis order state)
    (distinct : (analysis.entities.map (·.id)).Nodup) {entity : Entity} {chain : List Entity}
    (isChain : ScopeChain analysis entity chain) (member : entity ∈ order) :
    (chain.filterMap fun outer => state.number? outer.id).Pairwise (· < ·) := by
  have contained := (run.sublist_of_scopeChain distinct isChain member).filterMap
    fun outer => state.number? outer.id
  rw [run.filterMap_number?_eq_range] at contained
  exact List.pairwise_lt_range.sublist contained

/-- At the end of a run through all entities, as many numbers are issued as there
are entities to be numbered. -/
theorem issued_eq_length (run : NamingRun context analysis order state)
    (distinct : (analysis.entities.map (·.id)).Nodup) (all : order.Perm analysis.entities) :
    state.numbers.issued = analysis.belowLocal.length := by
  classical
  have numbered : order.filter (fun entity => (state.number? entity.id).isSome) =
      order.filter (BelowLocal analysis ·) :=
    List.filter_congr fun entity member => by
      rw [Bool.eq_iff_iff, run.isSome_number?_iff distinct member, decide_eq_true_iff]
  calc
    state.numbers.issued = (List.range state.numbers.issued).length := by simp
    _ = (order.filterMap fun entity => state.number? entity.id).length := by
      rw [run.filterMap_number?_eq_range]
    _ = (order.filter (BelowLocal analysis ·)).length := by
      rw [List.length_filterMap_eq_countP, List.countP_eq_length_filter, numbered]
    _ = analysis.belowLocal.length := by
      rw [AnalyzedFile.belowLocal, (all.filter _).length_eq]

end NamingRun

namespace Symbol

theorem toList_text_inFile (number : Nat) :
    (Symbol.inFile number).text.toList = "local ".toList ++ Nat.toDigits 10 number := by
  simp [text, toString, Nat.toList_repr]

theorem text_inFile_injective {number other : Nat}
    (same : (Symbol.inFile number).text = (Symbol.inFile other).text) : number = other := by
  have digits := congrArg String.toList same
  rw [toList_text_inFile, toList_text_inFile, List.append_cancel_left_eq] at digits
  rw [← @Nat.ofDigitChars_ten_toDigits number, digits, Nat.ofDigitChars_ten_toDigits]

theorem count_space_text_inFile (number : Nat) :
    (Symbol.inFile number).text.toList.count ' ' = 1 := by
  have noSpace : ' ' ∉ Nat.toDigits 10 number := by
    intro member
    have digit := Nat.isDigit_of_mem_toDigits (by decide) (by decide) member
    exact absurd digit (by decide)
  rw [toList_text_inFile, List.count_append, List.count_eq_zero.mpr noSpace]
  rfl

/-- A text that begins with the root of a package is not that of a local
symbol. -/
theorem text_inFile_ne {text : String} {ecosystem : Ecosystem} {manager name version : String}
    (rooted : (ecosystem.packageRoot manager name version).text.toList <+: text.toList)
    (number : Nat) : text ≠ (Symbol.inFile number).text := by
  rintro rfl
  have spaces := rooted.sublist.count_le ' '
  rw [count_space_text_inFile, Ecosystem.packageRoot, String.toList_ofList] at spaces
  simp only [Ecosystem.rootChars, List.count_append, List.count_cons_self] at spaces
  omega

end Symbol

namespace ProjectNaming

variable {context : ProjectNaming} {analysis : AnalyzedFile}

/-- The entities of a file that are local or have a local one around them are
numbered from zero on, each with a number of its own, which all its occurrences
show, and the numbers along a scope chain increase.  The text of a number is not
the text of any other or of a global symbol.  What has been named before the file
has no part in its document. -/
theorem nameFile_localNumbers {named : NamedFile}
    (success : context.nameFile analysis = .ok named) :
    ∃ state, context.nameEntities analysis = .ok state ∧
      named.localCount = analysis.belowLocal.length ∧
      NumbersDensely (fun entity => state.number? entity.id) analysis.entities
        analysis.belowLocal.length ∧
      (∀ entity ∈ analysis.entities,
        (state.number? entity.id).isSome = true ↔ BelowLocal analysis entity) ∧
      List.Forall₂
        (fun (mention : Mention) (occurrence : Occurrence) =>
          ∃ symbol, state.symbol? mention.entity = some symbol ∧
            occurrence.symbol = symbol.text)
        analysis.occurrences named.document.occurrences ∧
      (∀ entity chain, ScopeChain analysis entity chain →
        (chain.filterMap fun outer => state.number? outer.id).Pairwise (· < ·)) ∧
      (∀ number,
        (∀ other, (Symbol.inFile other).text = (Symbol.inFile number).text → other = number) ∧
        ∀ (ecosystem : Ecosystem) manager name version descriptors symbol,
          Symbol.path (.global (ecosystem.packageRoot manager name version)) descriptors =
            .ok symbol → symbol.text ≠ (Symbol.inFile number).text) ∧
      ∀ policy (progress : AssemblyProgress), progress.aborted = none →
        (progress.addInput context policy (.ofAnalysis analysis)).draft.documents =
          progress.draft.documents ++ [named.document] := by
  obtain ⟨noDuplicate, last, occurrences, entitiesNamed, mapped, isNamed⟩ :=
    nameFile_eq_ok success
  have distinct := AnalyzedFile.nodup_of_duplicate_eq_none noDuplicate
  obtain ⟨order, run, all⟩ := NamingRun.exists_of_nameEntities distinct entitiesNamed
  have count := run.issued_eq_length distinct all
  refine ⟨last, entitiesNamed, ?_, ?_, ?_, ?_, ?_, fun number => ⟨?_, ?_⟩, ?_⟩
  · rw [isNamed, ← count]
  · rw [← count]
    exact run.numbersDensely.of_perm all
  · intro entity declared
    exact run.isSome_number?_iff distinct (all.mem_iff.mpr declared)
  · rw [isNamed]
    refine (forall₂_of_mapM mapped).imp fun mention occurrence found => ?_
    obtain ⟨symbol, given, -, rfl⟩ := Mention.toOccurrence_eq_ok found
    exact ⟨symbol, given, rfl⟩
  · intro entity chain isChain
    exact run.pairwise_number? distinct isChain (all.mem_iff.mpr isChain.declared)
  · exact fun other => Symbol.text_inFile_injective
  · intro ecosystem manager name version descriptors symbol reached
    exact Symbol.text_inFile_ne ⟨_, (Symbol.path_text reached).symm⟩ number
  · intro policy progress going
    have isDocument : (IndexInput.ofAnalysis analysis).document? context =
        some named.document := by
      simp [IndexInput.document?, IndexInput.name, IndexInput.ofAnalysis, success]
    rw [AssemblyProgress.addInput_of_document policy going isDocument]
    rfl

end ProjectNaming

theorem nameFile_localNumbers_of_widget :
    ∃ named state, widgetNaming.nameFile widgetAnalysis = .ok named ∧
      named.localCount = 2 ∧ widgetNaming.nameEntities widgetAnalysis = .ok state ∧
      state.number? 3 = some 0 ∧ state.number? 4 = some 1 ∧
      NumbersDensely (fun entity => state.number? entity.id) widgetAnalysis.entities 2 := by
  let run : SymbolInformation := ⟨"scip-python pypi lib 2.0 Widget#run().", [], "run"⟩
  have success : widgetNaming.nameFile widgetAnalysis = .ok
      ⟨⟨"python", "app.py", [⟨[0, 0, 3], run.symbol, 1⟩, ⟨[1, 0, 1], "local 1", 8⟩],
        [run]⟩, 2⟩ := by
    rfl
  obtain ⟨state, entitiesNamed, count, dense, -⟩ :=
    ProjectNaming.nameFile_localNumbers success
  rw [← count] at dense
  refine ⟨_, state, success, rfl, entitiesNamed, ?_, ?_, dense⟩
  · cases entitiesNamed
    rfl
  · cases entitiesNamed
    rfl

end SymbolIndex
