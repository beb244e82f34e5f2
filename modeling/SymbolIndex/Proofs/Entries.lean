import SymbolIndex.Entries
import Mathlib.Data.List.Basic
import Mathlib.Tactic.Tauto

/-!
# Changes of named entries

What is found in a list of entries after one of them was set, and which names and values
are in it.
-/

namespace SymbolIndex

section Entries

variable {α : Type}

theorem lookup_cons_eq_ite (first : String) (value : α) (entries : List (String × α))
    (name : String) :
    ((first, value) :: entries).lookup name =
      if name = first then some value else entries.lookup name := by
  by_cases same : name = first
  · simp [same]
  · simp [List.lookup_cons, beq_false_of_ne same, same]

theorem lookup_setEntry (name other : String) (value : α) (entries : List (String × α)) :
    (setEntry name value entries).lookup other =
      if other = name then some value else entries.lookup other := by
  induction entries with
  | nil => simp [setEntry, lookup_cons_eq_ite]
  | cons entry rest ih =>
      obtain ⟨first, old⟩ := entry
      by_cases hit : name = first
      · subst hit
        by_cases same : other = name <;> simp [setEntry, lookup_cons_eq_ite, same]
      · by_cases same : other = first
        · have different : first ≠ name := fun equal => hit equal.symm
          simp [setEntry, hit, same, different]
        · simp [setEntry, hit, lookup_cons_eq_ite, same, ih]

theorem setEntry_setEntry (name : String) (first second : α) (entries : List (String × α)) :
    setEntry name second (setEntry name first entries) = setEntry name second entries := by
  induction entries with
  | nil => simp [setEntry]
  | cons entry rest ih =>
      obtain ⟨other, old⟩ := entry
      by_cases hit : name = other
      · simp [setEntry, hit]
      · simp [setEntry, hit, ih]

theorem setEntry_of_lookup {name : String} {value : α} {entries : List (String × α)}
    (found : entries.lookup name = some value) : setEntry name value entries = entries := by
  induction entries with
  | nil => cases found
  | cons entry rest ih =>
      obtain ⟨other, old⟩ := entry
      rw [lookup_cons_eq_ite] at found
      by_cases hit : name = other
      · obtain rfl : old = value := by simpa [hit] using found
        simp [setEntry, hit]
      · rw [if_neg hit] at found
        simp [setEntry, hit, ih found]

/-- A new entry that is taken out again leaves the entries as they were. -/
theorem filter_setEntry_of_fresh {name : String} {entries : List (String × α)}
    (fresh : entries.lookup name = none) (value : α) :
    (setEntry name value entries).filter (fun entry => entry.1 ≠ name) = entries := by
  induction entries with
  | nil => simp [setEntry]
  | cons entry rest ih =>
      obtain ⟨other, old⟩ := entry
      rw [lookup_cons_eq_ite] at fresh
      by_cases hit : name = other
      · simp [hit] at fresh
      · rw [if_neg hit] at fresh
        have kept : other ≠ name := fun equal => hit equal.symm
        rw [setEntry, if_neg hit, List.filter_cons_of_pos (by simpa using kept), ih fresh]

theorem mem_names_setEntry {name other : String} {value : α} {entries : List (String × α)} :
    other ∈ (setEntry name value entries).map Prod.fst ↔
      other = name ∨ other ∈ entries.map Prod.fst := by
  induction entries with
  | nil => simp [setEntry]
  | cons entry rest ih =>
      obtain ⟨first, old⟩ := entry
      by_cases hit : name = first
      · simp [setEntry, hit]
      · simp only [setEntry, if_neg hit, List.map_cons, List.mem_cons, ih]
        tauto

/-- No name has two entries if none had two before. -/
theorem nodup_setEntry (name : String) (value : α) {entries : List (String × α)}
    (distinct : (entries.map Prod.fst).Nodup) :
    ((setEntry name value entries).map Prod.fst).Nodup := by
  induction entries with
  | nil => simp [setEntry]
  | cons entry rest ih =>
      obtain ⟨first, old⟩ := entry
      obtain ⟨fresh, distinct⟩ := List.nodup_cons.mp distinct
      by_cases hit : name = first
      · simpa [setEntry, hit] using ⟨by simpa using fresh, distinct⟩
      · rw [setEntry, if_neg hit, List.map_cons]
        refine List.nodup_cons.mpr ⟨fun member => ?_, ih distinct⟩
        exact (mem_names_setEntry.mp member).elim (fun same => hit same.symm) fresh

theorem mem_values_setEntry {name : String} {value : α} {entries : List (String × α)}
    {entry : String × α} (member : entry ∈ setEntry name value entries) :
    entry.2 = value ∨ entry ∈ entries := by
  induction entries with
  | nil => simp_all [setEntry]
  | cons first rest ih =>
      rw [setEntry] at member
      split at member
      · rcases List.mem_cons.mp member with rfl | member
        · exact .inl rfl
        · exact .inr (List.mem_cons_of_mem _ member)
      · rcases List.mem_cons.mp member with rfl | member
        · exact .inr List.mem_cons_self
        · exact (ih member).imp_right (List.mem_cons_of_mem _)

end Entries

end SymbolIndex
