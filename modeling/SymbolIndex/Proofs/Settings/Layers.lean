import SymbolIndex.Proofs.Entries
import SymbolIndex.Proofs.FilePath.Pieces
import SymbolIndex.Settings.Reader
import SymbolIndex.Settings.Variable
import Mathlib.Data.List.Induction

/-!
# Values over one another

What is found under a name after values were put over one another.  No name has two values
in what the variables of an environment set, so the value of a name there depends on
nothing but what is below it and what is over it under the same name.
-/

namespace SymbolIndex

namespace SettingValue

/-- The value of a name in a table. -/
def get? : SettingValue → String → Option SettingValue
  | table entries, name => entries.lookup name
  | _, _ => none

@[simp]
theorem get?_table (entries : List (String × SettingValue)) (name : String) :
    (table entries).get? name = entries.lookup name := rfl

/-- A value put over the value that is there, if there is one. -/
def laidOver : Option SettingValue → SettingValue → SettingValue
  | some below, value => below.overlaid value
  | none, value => value

@[simp]
theorem laidOver_none : laidOver none = id := rfl

theorem laidOver_of_notTable {value : SettingValue} (notTable : ∀ entries, value ≠ table entries)
    (below : Option SettingValue) : laidOver below value = value := by
  cases below with
  | none => rfl
  | some below =>
      cases value with
      | table entries => exact absurd rfl (notTable entries)
      | _ => rfl

theorem laidOver_table (below : Option SettingValue) (entries : List (String × SettingValue)) :
    ∃ merged, laidOver below (table entries) = table merged := by
  cases below with
  | none => exact ⟨_, rfl⟩
  | some below => cases below <;> exact ⟨_, rfl⟩

theorem entriesOverlaid_cons (below : List (String × SettingValue)) (name : String)
    (value : SettingValue) (rest : List (String × SettingValue)) :
    entriesOverlaid below ((name, value) :: rest) =
      entriesOverlaid (setEntry name (laidOver (below.lookup name) value) below) rest := by
  rw [entriesOverlaid]
  cases below.lookup name <;> rfl

/-- What is found in entries that were put over others. -/
theorem lookup_entriesOverlaid {below above : List (String × SettingValue)}
    (distinct : (above.map Prod.fst).Nodup) (name : String) :
    (entriesOverlaid below above).lookup name =
      ((above.lookup name).map (laidOver (below.lookup name))).or (below.lookup name) := by
  induction above generalizing below with
  | nil => rfl
  | cons entry rest ih =>
      obtain ⟨first, value⟩ := entry
      obtain ⟨fresh, distinct⟩ := List.nodup_cons.mp distinct
      rw [entriesOverlaid_cons, ih distinct, lookup_setEntry, lookup_cons_eq_ite]
      by_cases same : name = first
      · subst same
        have absent : rest.lookup name = none := by
          refine List.lookup_eq_none_iff.mpr fun entry member => ?_
          exact bne_iff_ne.mpr fun same => fresh (List.mem_map.mpr ⟨entry, member, same.symm⟩)
        simp [absent]
      · simp [same]

/-- What is found in a table that was put over what is there. -/
theorem get?_laidOver {above : List (String × SettingValue)}
    (distinct : (above.map Prod.fst).Nodup) (below : Option SettingValue) (name : String) :
    (laidOver below (table above)).get? name =
      ((above.lookup name).map (laidOver (below.bind (·.get? name)))).or
        (below.bind (·.get? name)) := by
  cases below with
  | none => simp [laidOver, get?]
  | some below =>
      cases below with
      | table old => exact lookup_entriesOverlaid distinct name
      | _ => simp [laidOver, overlaid, get?]

@[simp]
theorem text?_laidOver (below : Option SettingValue) (value : SettingValue) :
    (laidOver below value).text? = value.text? := by
  cases value with
  | table entries =>
      obtain ⟨merged, equal⟩ := laidOver_table below entries
      rw [equal]
      rfl
  | _ => rw [laidOver_of_notTable (by rintro _ ⟨⟩)]

/-- One more value in a table shows under its own name and under no other when the table
is put over what is there. -/
theorem lookup_laidOver_setEntry {below : Option SettingValue}
    {above before after : List (String × SettingValue)} {name : String} {value : SettingValue}
    (distinct : (above.map Prod.fst).Nodup)
    (without : laidOver below (table above) = table before)
    (within : laidOver below (table (setEntry name value above)) = table after) :
    after.lookup name = some (laidOver (below.bind (·.get? name)) value) ∧
      ∀ other, other ≠ name → after.lookup other = before.lookup other := by
  have found (other : String) := get?_laidOver (nodup_setEntry name value distinct) below other
  simp only [within, lookup_setEntry, get?_table] at found
  refine ⟨by simp [found], fun other differs => ?_⟩
  have same := get?_laidOver distinct below other
  rw [without, get?_table] at same
  rw [found, if_neg differs, same]

/-! ## Distinct names -/

/-- Whether no name has two values in a value that is a table. -/
def NamesDistinct (value : SettingValue) : Prop :=
  ∀ entries, value = table entries → (entries.map Prod.fst).Nodup

theorem namesDistinct_table {entries : List (String × SettingValue)}
    (distinct : (entries.map Prod.fst).Nodup) : (table entries).NamesDistinct := by
  rintro _ ⟨⟩
  exact distinct

theorem nodup_entriesOverlaid {below : List (String × SettingValue)}
    (distinct : (below.map Prod.fst).Nodup) (above : List (String × SettingValue)) :
    ((entriesOverlaid below above).map Prod.fst).Nodup := by
  induction above generalizing below with
  | nil => exact distinct
  | cons entry rest ih =>
      rw [entriesOverlaid_cons]
      exact ih (nodup_setEntry _ _ distinct)

theorem namesDistinct_laidOver {below : Option SettingValue} {value : SettingValue}
    (old : ∀ found, below = some found → found.NamesDistinct) (new : value.NamesDistinct) :
    (laidOver below value).NamesDistinct := by
  cases below with
  | none => exact new
  | some below =>
      cases value with
      | table entries =>
          cases below with
          | table found =>
              exact namesDistinct_table (nodup_entriesOverlaid (old _ rfl found rfl) entries)
          | _ => exact new
      | _ => exact new

theorem namesDistinct_nested {value : SettingValue} (distinct : value.NamesDistinct)
    (path : List String) : (value.nested path).NamesDistinct := by
  cases path with
  | nil => exact distinct
  | cons name rest => exact namesDistinct_table (List.pairwise_singleton _ _)

theorem ofWord_ne_table (cs : List Char) (entries : List (String × SettingValue)) :
    ofWord cs ≠ table entries := by
  rw [ofWord]
  split
  · exact nofun
  · split <;> exact nofun

/-- What a variable is read as has no name with two values. -/
theorem namesDistinct_ofVariable (written : String) : (ofVariable written).NamesDistinct := by
  intro entries read
  rw [ofVariable] at read
  split at read
  case h_2 => cases read
  case h_1 value taken =>
    subst read
    rw [valueWithin] at taken
    split at taken
    case h_7 =>
      obtain ⟨found, mapped, equal⟩ := Option.bind_eq_some_iff.mp taken
      obtain ⟨inner, _, rfl⟩ := Option.map_eq_some_iff.mp mapped
      obtain ⟨merged, -⟩ := Prod.mk.inj (Option.some.inj equal)
      obtain rfl := table.inj merged
      have empty : (([] : List (String × SettingValue)).map Prod.fst).Nodup := List.nodup_nil
      exact nodup_entriesOverlaid empty _
    case h_8 =>
      obtain ⟨equal, _⟩ := Prod.mk.inj (Option.some.inj taken)
      exact absurd equal (ofWord_ne_table _ _)
    case h_3 | h_6 =>
      obtain ⟨found, mapped, equal⟩ := Option.bind_eq_some_iff.mp taken
      obtain ⟨inner, _, rfl⟩ := Option.map_eq_some_iff.mp mapped
      cases equal
    all_goals cases taken

/-! ## What an environment sets -/

/-- Whether no name has two values among entries, nor in a table among their values. -/
structure IsLayer (entries : List (String × SettingValue)) : Prop where
  distinct : (entries.map Prod.fst).Nodup
  inner : ∀ entry ∈ entries, entry.2.NamesDistinct

namespace IsLayer

variable {entries : List (String × SettingValue)}

theorem namesDistinct_of_lookup (layer : IsLayer entries) {name : String} {value : SettingValue}
    (found : entries.lookup name = some value) : value.NamesDistinct := by
  obtain ⟨before, after, rfl, -⟩ := List.lookup_eq_some_iff.mp found
  exact layer.inner (name, value) (by simp)

/-- A value that is set over a layer leaves a layer. -/
theorem setEntry (layer : IsLayer entries) (name : String) {value : SettingValue}
    (distinct : value.NamesDistinct) :
    IsLayer (setEntry name (laidOver (entries.lookup name) value) entries) where
  distinct := nodup_setEntry _ _ layer.distinct
  inner entry member := by
    rcases mem_values_setEntry member with equal | member
    · rw [equal]
      exact namesDistinct_laidOver (fun _ found => layer.namesDistinct_of_lookup found) distinct
    · exact layer.inner entry member

end IsLayer

theorem overlaid_nested (entries : List (String × SettingValue)) (value : SettingValue)
    (name : String) (rest : List String) :
    (table entries).overlaid (value.nested (name :: rest)) =
      table (setEntry name (laidOver (entries.lookup name) (value.nested rest)) entries) := by
  rw [nested, overlaid, entriesOverlaid_cons, entriesOverlaid]

theorem settingPath?_ne_nil (name : String) : settingPath? name ≠ some [] := by
  intro empty
  rw [settingPath?] at empty
  split at empty
  · dsimp only at empty
    split at empty
    · cases empty
    · exact Text.splitOnChar_ne_nil _ _ (List.map_eq_nil_iff.mp (Option.some.inj empty))
  · cases empty

/-- What the variables of an environment set is a layer. -/
theorem exists_ofEnvironment (environment : List (String × String)) :
    ∃ entries, ofEnvironment environment = table entries ∧ IsLayer entries := by
  induction environment using List.reverseRecOn with
  | nil => exact ⟨[], rfl, List.nodup_nil, nofun⟩
  | append_singleton environment last ih =>
      obtain ⟨entries, equal, layer⟩ := ih
      rw [ofEnvironment] at equal
      rw [ofEnvironment, List.foldl_append, List.foldl_cons, List.foldl_nil, equal]
      dsimp only
      split
      case h_2 => exact ⟨entries, rfl, layer⟩
      case h_1 path sets =>
        cases path with
        | nil => exact absurd sets (settingPath?_ne_nil _)
        | cons name rest =>
            rw [overlaid_nested]
            exact ⟨_, rfl, layer.setEntry name
              (namesDistinct_nested (namesDistinct_ofVariable last.2) rest)⟩

/-- What an environment sets with one more variable. -/
theorem ofEnvironment_append {name : String} {path : List String}
    (sets : settingPath? name = some path) (environment : List (String × String))
    (written : String) :
    ofEnvironment (environment ++ [(name, written)]) =
      (ofEnvironment environment).overlaid ((ofVariable written).nested path) := by
  rw [ofEnvironment, List.foldl_append, List.foldl_cons, List.foldl_nil]
  simp only [sets, ofEnvironment]

end SettingValue

end SymbolIndex
