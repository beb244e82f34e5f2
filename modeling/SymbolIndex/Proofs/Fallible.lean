import Mathlib.Data.List.Forall2

/-!
# Computations that may fail

What the success of a sequence of computations says about its parts.
-/

namespace SymbolIndex

namespace Fallible

variable {ε α β σ : Type}

theorem bind_eq_ok {first : Except ε α} {next : α → Except ε β} {result : β} :
    first >>= next = .ok result ↔ ∃ value, first = .ok value ∧ next value = .ok result := by
  cases first with
  | error error => simp [bind, Except.bind]
  | ok value => simp [bind, Except.bind]

@[simp]
theorem mapError_ok (wrap : ε → σ) (value : α) :
    (Except.ok value).mapError wrap = .ok value := rfl

@[simp]
theorem mapError_error (wrap : ε → σ) (error : ε) :
    (Except.error error : Except ε α).mapError wrap = .error (wrap error) := rfl

theorem mapError_eq_ok {wrap : ε → σ} {computed : Except ε α} {result : α} :
    computed.mapError wrap = .ok result ↔ computed = .ok result := by
  cases computed with
  | error error => simp
  | ok value => simp

theorem map_eq_ok {after : α → β} {computed : Except ε α} {result : β} :
    computed.map after = .ok result ↔ ∃ value, computed = .ok value ∧ after value = result := by
  cases computed with
  | error error => simp [Except.map]
  | ok value => simp [Except.map]

theorem toOption_eq_some {computed : Except ε α} {result : α} :
    computed.toOption = some result ↔ computed = .ok result := by
  cases computed with
  | error error => simp [Except.toOption]
  | ok value => simp [Except.toOption]

theorem toOption_eq_none {computed : Except ε α} :
    computed.toOption = none ↔ ∃ error, computed = .error error := by
  cases computed with
  | error error => simp [Except.toOption]
  | ok value => simp [Except.toOption]

theorem forall₂_of_mapM {step : α → Except ε β} {items : List α} {results : List β}
    (mapped : items.mapM step = .ok results) :
    List.Forall₂ (fun item result => step item = .ok result) items results := by
  induction items generalizing results with
  | nil =>
      cases mapped
      exact .nil
  | cons item items ih =>
      rw [List.mapM_cons] at mapped
      obtain ⟨result, first, mapped⟩ := bind_eq_ok.mp mapped
      obtain ⟨others, rest, mapped⟩ := bind_eq_ok.mp mapped
      cases mapped
      exact .cons first (ih rest)

theorem exists_of_mapM {step : α → Except ε β} {items : List α} {results : List β}
    (mapped : items.mapM step = .ok results) {item : α} (member : item ∈ items) :
    ∃ result, step item = .ok result := by
  have steps := forall₂_of_mapM mapped
  clear mapped
  induction steps with
  | nil => cases member
  | cons first rest ih =>
      rcases List.mem_cons.mp member with rfl | member
      · exact ⟨_, first⟩
      · exact ih member

/-- The results of a step that succeeds for all items. -/
theorem mem_iff_of_mapM {step : α → Except ε β} {items : List α} {results : List β}
    (mapped : items.mapM step = .ok results) (result : β) :
    result ∈ results ↔ ∃ item ∈ items, step item = .ok result := by
  have steps := forall₂_of_mapM mapped
  clear mapped
  induction steps with
  | nil => simp
  | cons first rest ih => simp [ih, first, eq_comm]

theorem exists_mapM_eq_ok {step : α → Except ε β} {items : List α}
    (succeeds : ∀ item ∈ items, ∃ result, step item = .ok result) :
    ∃ results, items.mapM step = .ok results := by
  induction items with
  | nil => exact ⟨[], rfl⟩
  | cons first items ih =>
      obtain ⟨result, isFirst⟩ := succeeds first (by simp)
      obtain ⟨results, rest⟩ := ih fun item member => succeeds item (by simp [member])
      refine ⟨result :: results, ?_⟩
      rw [List.mapM_cons, isFirst, rest]
      rfl

/-- Two ways to go through the same items whose steps have related results. -/
theorem forall₂_of_mapM_mapM {step other : α → Except ε β} {items : List α}
    {results others : List β} {related : β → β → Prop}
    (steps : ∀ item ∈ items, ∀ result otherResult, step item = .ok result →
      other item = .ok otherResult → related result otherResult)
    (mapped : items.mapM step = .ok results) (otherMapped : items.mapM other = .ok others) :
    List.Forall₂ related results others := by
  induction items generalizing results others with
  | nil =>
      cases mapped
      cases otherMapped
      exact .nil
  | cons item items ih =>
      rw [List.mapM_cons] at mapped otherMapped
      obtain ⟨result, first, mapped⟩ := bind_eq_ok.mp mapped
      obtain ⟨rest, restMapped, mapped⟩ := bind_eq_ok.mp mapped
      obtain ⟨otherResult, otherFirst, otherMapped⟩ := bind_eq_ok.mp otherMapped
      obtain ⟨otherRest, otherRestMapped, otherMapped⟩ := bind_eq_ok.mp otherMapped
      cases mapped
      cases otherMapped
      exact .cons (steps item (by simp) _ _ first otherFirst)
        (ih (fun later member => steps later (by simp [member])) restMapped otherRestMapped)

/-- What every step keeps holds after a fold that succeeds. -/
theorem foldlM_induction {step : σ → α → Except ε σ} {motive : σ → Prop}
    {items : List α} {state last : σ}
    (keeps : ∀ item ∈ items, ∀ {state next : σ}, motive state → step state item = .ok next →
      motive next)
    (starts : motive state) (folded : items.foldlM step state = .ok last) : motive last := by
  induction items generalizing state with
  | nil =>
      cases folded
      exact starts
  | cons item items ih =>
      rw [List.foldlM_cons] at folded
      obtain ⟨next, first, rest⟩ := bind_eq_ok.mp folded
      exact ih (fun other member => keeps other (by simp [member]))
        (keeps item (by simp) starts first) rest

/-- A fold succeeds when every step succeeds from what the steps before it keep. -/
theorem exists_foldlM_eq_ok {step : σ → α → Except ε σ} {motive : σ → Prop}
    {items : List α} {state : σ}
    (steps : ∀ item ∈ items, ∀ state, motive state →
      ∃ next, step state item = .ok next ∧ motive next)
    (starts : motive state) : ∃ last, items.foldlM step state = .ok last := by
  induction items generalizing state with
  | nil => exact ⟨state, rfl⟩
  | cons item items ih =>
      obtain ⟨next, first, holds⟩ := steps item (by simp) state starts
      obtain ⟨last, rest⟩ := ih (fun other member => steps other (by simp [member])) holds
      exact ⟨last, by rw [List.foldlM_cons, first]; exact rest⟩

end Fallible

end SymbolIndex
