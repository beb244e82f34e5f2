import SymbolIndex.Json.Record
import Mathlib.Data.List.Basic
import Mathlib.Data.List.Forall2

/-!
# The presentations of a record

A record may be written as an object in many ways: its fields in any order, some of them
left out, and fields of other names between them.  However it is written, the values of
its fields are found.
-/

namespace SymbolIndex

namespace Json

/-- A field of a record: its name, the values that it may be written as, and whether it
may be left out. -/
structure Field where
  name : String
  Writes : Json → Prop
  Omissible : Prop

/-- Whether entries give fields in their order, except for some that may be left out. -/
inductive Gives : List Field → List (String × Json) → Prop
  | nil : Gives [] []
  | given {field : Field} {fields : List Field} {entries : List (String × Json)} {value : Json}
      (writes : field.Writes value) (others : Gives fields entries) :
      Gives (field :: fields) ((field.name, value) :: entries)
  | omitted {field : Field} {fields : List Field} {entries : List (String × Json)}
      (omissible : field.Omissible) (others : Gives fields entries) :
      Gives (field :: fields) entries

/-- Whether a value is a presentation of a record with certain fields: an object that gives
the fields in any order, with entries of other names among them. -/
def Presents (fields : List Field) (value : Json) : Prop :=
  ∃ given extras entries, Gives fields given ∧
    (∀ extra ∈ extras, extra.1 ∉ fields.map Field.name) ∧
    entries.Perm (given ++ extras) ∧ value = .ofFields entries

/-- Whether what was found for a field is a value that it may be written as, or nothing if
it may be left out. -/
def Fits (field : Field) : Option Json → Prop
  | some value => field.Writes value
  | none => field.Omissible

/-- The values with a name among entries. -/
def valuesNamed (name : String) (entries : List (String × Json)) : List Json :=
  valuesOf name (entries.map fun (name, value) => (some name, value))

theorem valuesNamed_cons (name first : String) (value : Json) (entries : List (String × Json)) :
    valuesNamed name ((first, value) :: entries) =
      if first = name then value :: valuesNamed name entries else valuesNamed name entries := by
  by_cases same : first = name <;> simp [valuesNamed, valuesOf, same]

theorem valuesNamed_append (name : String) (first second : List (String × Json)) :
    valuesNamed name (first ++ second) = valuesNamed name first ++ valuesNamed name second := by
  simp [valuesNamed, valuesOf]

theorem valuesNamed_of_fresh {name : String} {entries : List (String × Json)}
    (fresh : name ∉ entries.map Prod.fst) : valuesNamed name entries = [] := by
  induction entries with
  | nil => rfl
  | cons entry entries ih =>
      obtain ⟨first, value⟩ := entry
      simp only [List.map_cons, List.mem_cons, not_or] at fresh
      obtain ⟨differs, others⟩ := fresh
      rw [valuesNamed_cons, if_neg (Ne.symm differs), ih others]

theorem valuesNamed_perm (name : String) {first second : List (String × Json)}
    (perm : first.Perm second) : (valuesNamed name first).Perm (valuesNamed name second) :=
  (perm.map _).filterMap _

/-- Whether the value of a field is found among entries, or nothing is if the field may be
left out. -/
def IsFound (entries : List (String × Json)) (field : Field) : Prop :=
  ∃ found, Fits field found ∧ valuesNamed field.name entries = found.toList

theorem names_subset_of_gives {fields : List Field} {given : List (String × Json)}
    (gives : Gives fields given) : given.map Prod.fst ⊆ fields.map Field.name := by
  induction gives with
  | nil => exact List.Subset.refl _
  | given writes others ih => exact List.cons_subset_cons _ ih
  | omitted omissible others ih => exact List.Subset.trans ih (List.subset_cons_self _ _)

/-- Fields of distinct names are found in what gives them. -/
theorem isFound_of_gives {fields : List Field} {given : List (String × Json)}
    (gives : Gives fields given) (distinct : (fields.map Field.name).Nodup) :
    ∀ field ∈ fields, IsFound given field := by
  induction gives with
  | nil => nofun
  | @given field fields entries value writes others ih =>
      obtain ⟨fresh, distinct⟩ := List.nodup_cons.mp distinct
      refine List.forall_mem_cons.mpr ⟨⟨some value, writes, ?_⟩, fun later member => ?_⟩
      · rw [valuesNamed_cons, if_pos rfl]
        rw [valuesNamed_of_fresh fun member => fresh (names_subset_of_gives others member)]
        rfl
      · obtain ⟨found, fits, values⟩ := ih distinct later member
        have differs : field.name ≠ later.name := by
          intro same
          exact fresh (same ▸ List.mem_map_of_mem member)
        exact ⟨found, fits, by rw [valuesNamed_cons, if_neg differs, values]⟩
  | @omitted field fields entries omissible others ih =>
      obtain ⟨fresh, distinct⟩ := List.nodup_cons.mp distinct
      refine List.forall_mem_cons.mpr ⟨⟨none, omissible, ?_⟩, ih distinct⟩
      exact valuesNamed_of_fresh fun member => fresh (names_subset_of_gives others member)

/-- Neither the order of entries nor entries of other names make a difference to what is
found. -/
theorem IsFound.of_perm {given extras entries : List (String × Json)} {field : Field}
    (isFound : IsFound given field) (foreign : field.name ∉ extras.map Prod.fst)
    (perm : entries.Perm (given ++ extras)) : IsFound entries field := by
  obtain ⟨found, fits, values⟩ := isFound
  have same := valuesNamed_perm field.name perm
  rw [valuesNamed_append, values, valuesNamed_of_fresh foreign, List.append_nil] at same
  refine ⟨found, fits, ?_⟩
  cases found with
  | none => exact same.eq_nil
  | some value => exact List.perm_singleton.mp same

/-- The values of a record's fields are found in every presentation of the record. -/
theorem record?_of_presents {fields : List Field} {value : Json}
    (distinct : (fields.map Field.name).Nodup) (presents : Presents fields value) :
    ∃ values, value.record? (fields.map Field.name) = some values ∧
      List.Forall₂ Fits fields values := by
  obtain ⟨given, extras, entries, gives, foreign, perm, rfl⟩ := presents
  have allFound : ∀ field ∈ fields, IsFound entries field := by
    intro field member
    refine (isFound_of_gives gives distinct field member).of_perm ?_ perm
    rintro among
    obtain ⟨extra, isExtra, same⟩ := List.mem_map.mp among
    exact foreign extra isExtra (same ▸ List.mem_map_of_mem member)
  have named : (entries.map fun (name, value) => (some name, value)).all
      (fun entry => entry.1.isSome) = true := by
    simp
  rw [ofFields, record?, if_pos named]
  clear gives foreign perm distinct named
  induction fields with
  | nil => exact ⟨[], rfl, .nil⟩
  | cons field fields ih =>
      obtain ⟨⟨found, fits, values⟩, others⟩ := List.forall_mem_cons.mp allFound
      obtain ⟨rest, read, allFit⟩ := ih others
      refine ⟨found :: rest, ?_, .cons fits allFit⟩
      rw [valuesNamed] at values
      rw [List.map_cons, List.mapM_cons, read, values]
      cases found <;> rfl

/-! ## Reading what was found -/

section Reading

variable {α : Type} {writes : α → Json → Prop} {decode : Json → Option α}

/-- Whether a value is read from whatever it may be written as. -/
def IsReadBy (decode : Json → Option α) (writes : α → Json → Prop) : Prop :=
  ∀ value json, writes value json → decode json = some value

/-- What a list of values may be written as. -/
def WritesList (writes : α → Json → Prop) (values : List α) (json : Json) : Prop :=
  ∃ items, json = .array items ∧ List.Forall₂ writes values items

/-- What a value that may be absent may be written as. -/
def WritesOptional (writes : α → Json → Prop) : Option α → Json → Prop
  | none, json => json = .null
  | some value, json => writes value json

def WritesText (s : String) (json : Json) : Prop :=
  json = .ofString s

def WritesInteger (n : Int) (json : Json) : Prop :=
  json = .integer n

theorem isReadBy_string? : IsReadBy string? WritesText := by
  rintro s json rfl
  rfl

theorem integerBetween?_of_le {low high n : Int} (lower : low ≤ n) (upper : n ≤ high) :
    integerBetween? low high (.integer n) = some n := by
  simp [integerBetween?, lower, upper]

theorem isReadBy_uint32? : IsReadBy uint32? fun n => WritesInteger n.toNat := by
  rintro n json rfl
  have bound := n.toNat_lt_size
  rw [uint32?, integerBetween?_of_le (by omega) (by omega), Option.map_some, Int.toNat_natCast,
    UInt32.ofNat_toNat]

theorem isReadBy_int32? : IsReadBy int32? fun n => WritesInteger n.toInt := by
  rintro n json rfl
  have bounds := And.intro n.minValue_le_toInt n.toInt_le
  rw [int32?, integerBetween?_of_le bounds.1 bounds.2, Option.map_some, Int32.ofInt_toInt]

theorem isReadBy_list? (reads : IsReadBy decode writes) :
    IsReadBy (list? decode) (WritesList writes) := by
  rintro values json ⟨items, rfl, written⟩
  rw [list?]
  induction written with
  | nil => rfl
  | cons first others ih => rw [List.mapM_cons, reads _ _ first, ih]; rfl

theorem isReadBy_nullable (reads : IsReadBy decode writes) (notNull : decode .null = none) :
    IsReadBy (nullable decode) (WritesOptional writes) := by
  rintro (_ | value) json written
  · rw [written]
    rfl
  · have read := reads value json written
    cases json with
    | null => rw [notNull] at read; cases read
    | _ => rw [nullable, read, Option.map_some]; nofun

namespace Field

/-- A field that has to be given. -/
def mandatory (name : String) (writes : α → Json → Prop) (value : α) : Field :=
  ⟨name, writes value, False⟩

/-- A field that may be left out if its value is the default. -/
def withDefault (name : String) (writes : α → Json → Prop) (value default : α) : Field :=
  ⟨name, writes value, value = default⟩

end Field

variable {name : String} {value default : α} {found : Option Json}

theorem required_of_fits (reads : IsReadBy decode writes)
    (fits : Fits (.mandatory name writes value) found) : required decode found = some value := by
  cases found with
  | none => exact fits.elim
  | some json => exact reads value json fits

theorem defaulting_of_fits (reads : IsReadBy decode writes)
    (fits : Fits (.withDefault name writes value default) found) :
    defaulting default decode found = some value := by
  cases found with
  | none => exact congrArg some (Eq.symm fits)
  | some json => exact reads value json fits

end Reading

end Json

end SymbolIndex
