import SymbolIndex.Naming.Basic
import SymbolIndex.Proofs.Fallible
import Mathlib.Data.List.Nodup

/-!
# Scope chains

The scope chain of an entity leads from the outermost scope around it to the
entity itself.  In an analysis that declares no entity twice it is the only one.
The walk of the naming pass finds a part of it: the entities that have no name
yet, in an order in which each comes after its scope.
-/

namespace SymbolIndex

/-- The entities from the outermost scope of an entity to the entity itself. -/
inductive ScopeChain (analysis : AnalyzedFile) : Entity → List Entity → Prop where
  | outermost {entity : Entity} (declared : entity ∈ analysis.entities)
      (top : entity.scope = none) : ScopeChain analysis entity [entity]
  | inside {entity outer : Entity} {chain : List Entity}
      (declared : entity ∈ analysis.entities) (scope : entity.scope = some outer.id)
      (around : ScopeChain analysis outer chain) :
      ScopeChain analysis entity (chain ++ [entity])

namespace AnalyzedFile

variable {analysis : AnalyzedFile}

theorem duplicate_go_eq_none {seen : List EntityId} {entities : List Entity}
    (none : duplicate?.go seen entities = none) :
    (entities.map (·.id)).Nodup ∧ ∀ entity ∈ entities, entity.id ∉ seen := by
  induction entities generalizing seen with
  | nil => simp
  | cons entity entities ih =>
      unfold duplicate?.go at none
      split at none
      · cases none
      · rename_i fresh
        obtain ⟨distinct, notSeen⟩ := ih none
        simp only [List.contains_iff_mem] at fresh
        constructor
        · rw [List.map_cons, List.nodup_cons]
          refine ⟨?_, distinct⟩
          intro member
          obtain ⟨other, isOther, sameId⟩ := List.mem_map.mp member
          exact notSeen other isOther (by simp [sameId])
        · intro other member
          rcases List.mem_cons.mp member with rfl | member
          · exact fresh
          · exact fun isSeen => notSeen other member (by simp [isSeen])

theorem duplicate_go_of_nodup {seen : List EntityId} {entities : List Entity}
    (distinct : (entities.map (·.id)).Nodup) (notSeen : ∀ entity ∈ entities, entity.id ∉ seen) :
    duplicate?.go seen entities = none := by
  induction entities generalizing seen with
  | nil => rfl
  | cons entity entities ih =>
      rw [List.map_cons, List.nodup_cons] at distinct
      have fresh : seen.contains entity.id = false := by
        simpa using notSeen entity (by simp)
      rw [duplicate?.go, fresh]
      refine ih distinct.2 fun other member isSeen => ?_
      rcases List.mem_cons.mp isSeen with sameId | isSeen
      · exact distinct.1 (sameId ▸ List.mem_map_of_mem member)
      · exact notSeen other (by simp [member]) isSeen

theorem nodup_of_duplicate_eq_none (none : analysis.duplicate? = none) :
    (analysis.entities.map (·.id)).Nodup :=
  (duplicate_go_eq_none none).1

theorem entity_eq_some {id : EntityId} {entity : Entity}
    (found : analysis.entity? id = some entity) :
    entity ∈ analysis.entities ∧ entity.id = id :=
  ⟨List.mem_of_find?_eq_some found, by simpa using List.find?_some found⟩

theorem eq_of_id_eq (distinct : (analysis.entities.map (·.id)).Nodup)
    {entity other : Entity} (declared : entity ∈ analysis.entities)
    (otherDeclared : other ∈ analysis.entities) (sameId : entity.id = other.id) :
    entity = other :=
  List.inj_on_of_nodup_map distinct declared otherDeclared sameId

theorem entity?_of_declared (distinct : (analysis.entities.map (·.id)).Nodup)
    {entity : Entity} (declared : entity ∈ analysis.entities) :
    analysis.entity? entity.id = some entity := by
  cases found : analysis.entity? entity.id with
  | none => simpa using List.find?_eq_none.mp found entity declared
  | some other =>
      obtain ⟨otherDeclared, sameId⟩ := entity_eq_some found
      rw [eq_of_id_eq distinct otherDeclared declared sameId]

end AnalyzedFile

namespace ScopeChain

variable {analysis : AnalyzedFile}

theorem declared {entity : Entity} {chain : List Entity}
    (isChain : ScopeChain analysis entity chain) : entity ∈ analysis.entities := by
  cases isChain with
  | outermost declared top => exact declared
  | inside declared scope around => exact declared

/-- An entity has at most one scope chain when no entity is declared twice. -/
theorem unique (distinct : (analysis.entities.map (·.id)).Nodup)
    {entity : Entity} {chain other : List Entity}
    (isChain : ScopeChain analysis entity chain)
    (isOther : ScopeChain analysis entity other) : chain = other := by
  induction isChain generalizing other with
  | outermost declared top =>
      cases isOther with
      | outermost => rfl
      | inside otherDeclared scope around => simp [top] at scope
  | inside declared scope around ih =>
      cases isOther with
      | outermost otherDeclared top => simp [top] at scope
      | inside otherDeclared otherScope otherAround =>
          rw [scope] at otherScope
          have sameScope := AnalyzedFile.eq_of_id_eq distinct around.declared
            otherAround.declared (Option.some.inj otherScope)
          subst sameScope
          rw [ih otherAround]

/-- A scope chain goes around an entity and ends with it. -/
theorem exists_around {entity : Entity} {chain : List Entity}
    (isChain : ScopeChain analysis entity chain) : ∃ around, chain = around ++ [entity] := by
  cases isChain with
  | outermost declared top => exact ⟨[], rfl⟩
  | inside declared scope around => exact ⟨_, rfl⟩

theorem mem_self {entity : Entity} {chain : List Entity}
    (isChain : ScopeChain analysis entity chain) : entity ∈ chain := by
  obtain ⟨around, rfl⟩ := isChain.exists_around
  simp

/-- A scope chain begins with the scope chains of its entities. -/
theorem exists_prefix_of_mem {entity outer : Entity} {chain : List Entity}
    (isChain : ScopeChain analysis entity chain) (member : outer ∈ chain) :
    ∃ shorter, ScopeChain analysis outer shorter ∧ shorter <+: chain := by
  induction isChain with
  | outermost declared top =>
      obtain rfl := List.mem_singleton.mp member
      exact ⟨_, .outermost declared top, List.prefix_rfl⟩
  | @inside entity scopeEntity around declared scope isAround ih =>
      rcases List.mem_append.mp member with member | member
      · obtain ⟨shorter, isShorter, isPrefix⟩ := ih member
        exact ⟨shorter, isShorter, isPrefix.trans (List.prefix_append _ _)⟩
      · obtain rfl := List.mem_singleton.mp member
        exact ⟨_, .inside declared scope isAround, List.prefix_rfl⟩

/-- An entity is not among the scopes around it. -/
theorem id_ne_of_mem_around (distinct : (analysis.entities.map (·.id)).Nodup)
    {entity outer other : Entity} {around : List Entity}
    (isAround : ScopeChain analysis outer around) (declared : entity ∈ analysis.entities)
    (scope : entity.scope = some outer.id) (member : other ∈ around) :
    other.id ≠ entity.id := by
  intro sameId
  obtain ⟨shorter, isShorter, isPrefix⟩ := isAround.exists_prefix_of_mem member
  obtain rfl := AnalyzedFile.eq_of_id_eq distinct isShorter.declared declared sameId
  have sameChain := isShorter.unique distinct (.inside declared scope isAround)
  have shorterLength := isPrefix.length_le
  rw [sameChain, List.length_append, List.length_singleton] at shorterLength
  omega

end ScopeChain

/-- Entities in an order in which each comes after its scope, where the scopes in
`known` need not come at all. -/
def OutermostFirst (analysis : AnalyzedFile) (known : EntityId → Prop) :
    List Entity → Prop
  | [] => True
  | entity :: rest =>
    entity ∈ analysis.entities ∧ (∀ scope, entity.scope = some scope → known scope) ∧
      OutermostFirst analysis (fun id => id = entity.id ∨ known id) rest

namespace OutermostFirst

variable {analysis : AnalyzedFile}

theorem nil (known : EntityId → Prop) : OutermostFirst analysis known [] :=
  trivial

theorem mono {known wider : EntityId → Prop} {chain : List Entity}
    (widens : ∀ id, known id → wider id) (ordered : OutermostFirst analysis known chain) :
    OutermostFirst analysis wider chain := by
  induction chain generalizing known wider with
  | nil => trivial
  | cons entity rest ih =>
      obtain ⟨declared, inKnown, restOrdered⟩ := ordered
      refine ⟨declared, fun scope isScope => widens scope (inKnown scope isScope), ?_⟩
      exact ih (fun id => Or.imp_right (widens id)) restOrdered

end OutermostFirst

namespace AnalyzedFile

variable {analysis : AnalyzedFile} {state : NamingState}

/-- A walk along scopes ends at a named entity, or goes on with an entity that is
not named and not on the way yet. -/
theorem scopeChain_eq_ok {remaining : Nat} {inner chain : List Entity} {next : EntityId}
    (walked : analysis.scopeChain state remaining inner next = .ok chain) :
    ((state.symbol? next).isSome = true ∧ chain = inner) ∨
      ∃ entity left, state.symbol? next = none ∧ analysis.entity? next = some entity ∧
        (∀ other ∈ inner, other.id ≠ next) ∧ remaining = left + 1 ∧
        ((entity.scope = none ∧ chain = entity :: inner) ∨
          ∃ scope, entity.scope = some scope ∧
            analysis.scopeChain state left (entity :: inner) scope = .ok chain) := by
  unfold scopeChain at walked
  split at walked
  · rename_i named
    cases walked
    exact .inl ⟨named, rfl⟩
  · rename_i unnamed
    split at walked
    · cases walked
    · rename_i entity found
      split at walked
      · cases walked
      · rename_i fresh
        split at walked
        · cases walked
        · rename_i left
          refine .inr ⟨entity, left, by simpa using unnamed, found, by simpa using fresh,
            rfl, ?_⟩
          split at walked
          · rename_i top
            cases walked
            exact .inl ⟨top, rfl⟩
          · rename_i scope isScope
            exact .inr ⟨scope, isScope, walked⟩

/-- The walk along scopes gives unnamed entities, each after its scope. -/
theorem outermostFirst_of_scopeChain {remaining : Nat} {inner chain : List Entity}
    {next : EntityId}
    (ordered : OutermostFirst analysis
      (fun id => id = next ∨ (state.symbol? id).isSome = true) inner)
    (walked : analysis.scopeChain state remaining inner next = .ok chain) :
    OutermostFirst analysis (fun id => (state.symbol? id).isSome = true) chain := by
  induction remaining generalizing inner next with
  | zero =>
      rcases scopeChain_eq_ok walked with ⟨named, rfl⟩ | ⟨entity, left, -, -, -, isZero, -⟩
      · exact ordered.mono (by rintro id (rfl | known) <;> assumption)
      · cases isZero
  | succ remaining ih =>
      rcases scopeChain_eq_ok walked with
        ⟨named, rfl⟩ | ⟨entity, left, -, found, -, isSucc, goesOn⟩
      · exact ordered.mono (by rintro id (rfl | known) <;> assumption)
      · cases isSucc
        obtain ⟨declared, rfl⟩ := entity_eq_some found
        rcases goesOn with ⟨top, rfl⟩ | ⟨scope, isScope, walked⟩
        · exact ⟨declared, by simp [top], ordered⟩
        · have scopeKnown : ∀ other, entity.scope = some other →
              other = scope ∨ (state.symbol? other).isSome = true := by
            intro other isOther
            rw [isScope] at isOther
            exact .inl (Option.some.inj isOther).symm
          have longerOrdered : OutermostFirst analysis
              (fun id => id = scope ∨ (state.symbol? id).isSome = true) (entity :: inner) :=
            ⟨declared, scopeKnown, ordered.mono fun id => Or.imp_right .inr⟩
          exact ih longerOrdered walked

end AnalyzedFile

end SymbolIndex
