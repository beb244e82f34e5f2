import SymbolIndex.Proofs.ReadOnly
import SymbolIndex.Proofs.Settings.Layers
import SymbolIndex.Proofs.Settings.Variables
import SymbolIndex.Settings.Files

/-!
# Texts set by variables

A variable for one of the settings that are texts changes this setting and no other, if
what the variable is read as is a text.  If it is something else, for example the number
that a version may look like, all settings become meaningless.
-/

namespace SymbolIndex

open SettingValue (optional orUsual path? text?)

/-! ## Reading settings name by name -/

section Reading

variable {entries : List (String × SettingValue)}

theorem ProjectSettings.ofSetting?_eq_some {settings : ProjectSettings} :
    ofSetting? (.table entries) = some settings ↔
      optional text? (entries.lookup "name") = some settings.name ∧
        optional text? (entries.lookup "version") = some settings.version ∧
        optional path? (entries.lookup "root") = some settings.root := by
  obtain ⟨name, version, root⟩ := settings
  simp [ofSetting?, SettingValue.group?, Option.bind_eq_some_iff]

theorem PackageSettings.ofSetting?_eq_some {usual settings : PackageSettings} :
    ofSetting? usual (.table entries) = some settings ↔
      orUsual usual.scheme text? (entries.lookup "scheme") = some settings.scheme ∧
        orUsual usual.manager text? (entries.lookup "manager") = some settings.manager ∧
        orUsual usual.normalization Normalization.ofSetting? (entries.lookup "normalization") =
          some settings.normalization ∧
        optional path? (entries.lookup "environment") = some settings.environment ∧
        orUsual usual.cacheDirectory path? (entries.lookup "cache_dir") =
          some settings.cacheDirectory ∧
        orUsual usual.pipCommand text? (entries.lookup "pip_command") =
          some settings.pipCommand ∧
        orUsual usual.pipBatchSize (·.natural? UInt64.size) (entries.lookup "pip_batch_size") =
          some settings.pipBatchSize := by
  obtain ⟨scheme, manager, normalization, environment, cacheDirectory, pipCommand, batchSize⟩ :=
    settings
  simp [ofSetting?, SettingValue.group?, names, Option.bind_eq_some_iff]

theorem LoggingSettings.ofSetting?_eq_some {usual settings : LoggingSettings} :
    ofSetting? usual (.table entries) = some settings ↔
      orUsual usual.default text? (entries.lookup "default") = some settings.default ∧
        orUsual usual.modules modules? (entries.lookup "modules") = some settings.modules := by
  obtain ⟨default, modules⟩ := settings
  simp [ofSetting?, SettingValue.group?, Option.bind_eq_some_iff]

theorem Settings.ofSetting?_eq_some {usual settings : Settings} :
    ofSetting? usual (.table entries) = some settings ↔
      orUsual usual.version (·.natural? UInt32.size) (entries.lookup "version") =
          some settings.version ∧
        optional path? (entries.lookup "workspace_root") = some settings.workspaceRoot ∧
        orUsual usual.project ProjectSettings.ofSetting? (entries.lookup "project") =
          some settings.project ∧
        orUsual usual.indexing usual.indexing.ofSetting? (entries.lookup "indexing") =
          some settings.indexing ∧
        orUsual usual.packages usual.packages.ofSetting? (entries.lookup "packages") =
          some settings.packages ∧
        orUsual usual.logging usual.logging.ofSetting? (entries.lookup "logging") =
          some settings.logging := by
  obtain ⟨version, workspaceRoot, project, indexing, packages, logging⟩ := settings
  simp [ofSetting?, SettingValue.group?, Option.bind_eq_some_iff]

end Reading

/-! ## One text set in a group -/

namespace SettingValue

/-- The entries of a group of settings: none if nothing is set in it. -/
def entries? : Option SettingValue → Option (List (String × SettingValue))
  | none => some []
  | some (table entries) => some entries
  | some _ => none

theorem laidOver_empty_of_entries? {found : Option SettingValue}
    {entries : List (String × SettingValue)} (isTable : entries? found = some entries) :
    laidOver found (table []) = table entries := by
  cases found with
  | none =>
      cases isTable
      rfl
  | some value =>
      cases value with
      | table inner =>
          cases isTable
          rfl
      | _ => cases isTable

/-- A group in which nothing is set is read like one without entries. -/
theorem orUsual_of_entries? {α : Type} {usual : α} {read : SettingValue → Option α}
    {found : Option SettingValue} {entries : List (String × SettingValue)}
    (nothing : read (table []) = some usual) (isTable : entries? found = some entries) :
    orUsual usual read found = read (table entries) := by
  cases found with
  | none =>
      cases isTable
      exact nothing.symm
  | some value =>
      cases value with
      | table inner =>
          cases isTable
          rfl
      | _ => cases isTable

/-- A group that is read as something is a table if it is no list. -/
theorem exists_entries?_of_orUsual {α : Type} {usual value : α} {read : SettingValue → Option α}
    {found : Option SettingValue} (names : List String) (least : Nat)
    (grouped : ∀ setting, setting.group? names least = none → read setting = none)
    (reads : orUsual usual read found = some value)
    (unlisted : ∀ items, found ≠ some (list items)) :
    ∃ entries, entries? found = some entries := by
  cases found with
  | none => exact ⟨[], rfl⟩
  | some setting =>
      cases setting with
      | table entries => exact ⟨entries, rfl⟩
      | list items => exact absurd rfl (unlisted items)
      | _ =>
          rw [orUsual, grouped _ rfl] at reads
          cases reads

/-- Whether entries are others in which a name has a value that is read as a certain text,
or as no text. -/
structure Sets (name : String) (read : Option String)
    (before after : List (String × SettingValue)) : Prop where
  here : ∃ value, after.lookup name = some value ∧ value.text? = read
  others : ∀ other, other ≠ name → after.lookup other = before.lookup other

namespace Sets

variable {name : String} {read : Option String} {before after : List (String × SettingValue)}

theorem optional_text? (sets : Sets name read before after) :
    optional text? (after.lookup name) = read.map some := by
  obtain ⟨value, found, rfl⟩ := sets.here
  rw [found]
  rfl

theorem orUsual_text? (sets : Sets name read before after) (usual : String) :
    orUsual usual text? (after.lookup name) = read := by
  obtain ⟨value, found, rfl⟩ := sets.here
  rw [found]
  rfl

end Sets

/-- A text set in a group of a layer is a text set in this group of what the layer is put
over, and nothing happens to the other groups. -/
theorem exists_sets_of_laidOver {below : Option SettingValue}
    {layer before after old : List (String × SettingValue)} {group name : String}
    {value : SettingValue} (isLayer : IsLayer layer)
    (without : laidOver below (table layer) = table before)
    (within : laidOver below ((table layer).overlaid (value.nested [group, name])) = table after)
    (isTable : entries? (before.lookup group) = some old) :
    (∃ new, after.lookup group = some (table new) ∧ Sets name value.text? old new) ∧
      ∀ other, other ≠ group → after.lookup other = before.lookup other := by
  rw [overlaid_nested] at within
  obtain ⟨here, others⟩ := lookup_laidOver_setEntry isLayer.distinct without within
  refine ⟨?_, others⟩
  have groupBefore := get?_laidOver isLayer.distinct below group
  rw [without, get?_table] at groupBefore
  generalize below.bind (·.get? group) = underneath at here groupBefore
  -- The group in the layer, where nothing set in it is the same as no entries.
  obtain ⟨inner, distinct, set, put⟩ : ∃ inner, (inner.map Prod.fst).Nodup ∧
      laidOver (layer.lookup group) (value.nested [name]) =
        table (setEntry name (laidOver (inner.lookup name) value) inner) ∧
      laidOver underneath (table inner) = table old := by
    cases found : layer.lookup group with
    | none =>
        rw [found, Option.map_none, Option.none_or] at groupBefore
        rw [groupBefore] at isTable
        exact ⟨[], List.nodup_nil, rfl, laidOver_empty_of_entries? isTable⟩
    | some grouped =>
        rw [found, Option.map_some, Option.some_or] at groupBefore
        rw [groupBefore] at isTable
        cases grouped with
        | table inner =>
            obtain ⟨merged, equal⟩ := laidOver_table underneath inner
            rw [equal] at isTable
            refine ⟨inner, isLayer.namesDistinct_of_lookup found inner rfl, overlaid_nested .., ?_⟩
            rw [equal, ← Option.some.inj isTable]
        | _ =>
            rw [laidOver_of_notTable (by rintro _ ⟨⟩)] at isTable
            cases isTable
  rw [set] at here
  obtain ⟨new, equal⟩ := laidOver_table underneath
    (setEntry name (laidOver (inner.lookup name) value) inner)
  obtain ⟨hereInner, othersInner⟩ := lookup_laidOver_setEntry distinct put equal
  refine ⟨new, here.trans (congrArg some equal), ⟨_, hereInner, ?_⟩, othersInner⟩
  rw [text?_laidOver, text?_laidOver]

end SettingValue

/-! ## The settings that are texts -/

/-- The texts that are set about a project. -/
inductive ProjectText where
  | name
  | version
  deriving DecidableEq, Repr

/-- The texts that are set about packages. -/
inductive PackageText where
  | scheme
  | manager
  | pipCommand
  deriving DecidableEq, Repr

/-- The settings that are texts and stand for themselves. -/
inductive TextSetting where
  | project (text : ProjectText)
  | packages (text : PackageText)
  | defaultLevel
  deriving DecidableEq, Repr

namespace ProjectText

/-- The name of a text in the group of the project. -/
def key : ProjectText → String
  | name => "name"
  | version => "version"

def put (settings : ProjectSettings) (value : String) : ProjectText → ProjectSettings
  | name => { settings with name := some value }
  | version => { settings with version := some value }

end ProjectText

namespace PackageText

/-- The name of a text in the group of the packages. -/
def key : PackageText → String
  | scheme => "scheme"
  | manager => "manager"
  | pipCommand => "pip_command"

def put (settings : PackageSettings) (value : String) : PackageText → PackageSettings
  | scheme => { settings with scheme := value }
  | manager => { settings with manager := value }
  | pipCommand => { settings with pipCommand := value }

end PackageText

namespace TextSetting

/-- The group that a setting is in. -/
def group : TextSetting → String
  | project _ => "project"
  | packages _ => "packages"
  | defaultLevel => "logging"

/-- The name of a setting in its group. -/
def key : TextSetting → String
  | project text => text.key
  | packages text => text.key
  | defaultLevel => "default"

/-- The environment variable for a setting. -/
def variableName : TextSetting → String
  | project .name => "SYMDEX_PROJECT__NAME"
  | project .version => "SYMDEX_PROJECT__VERSION"
  | packages .scheme => "SYMDEX_PACKAGES__SCHEME"
  | packages .manager => "SYMDEX_PACKAGES__MANAGER"
  | packages .pipCommand => "SYMDEX_PACKAGES__PIP_COMMAND"
  | defaultLevel => "SYMDEX_LOGGING__DEFAULT"

/-- Settings with one text changed. -/
def put (settings : Settings) (value : String) : TextSetting → Settings
  | project text => { settings with project := text.put settings.project value }
  | packages text => { settings with packages := text.put settings.packages value }
  | defaultLevel => { settings with logging := { settings.logging with default := value } }

theorem settingPath?_variableName (setting : TextSetting) :
    settingPath? setting.variableName = some [setting.group, setting.key] := by
  rcases setting with (_ | _) | (_ | _ | _) | _ <;> decide

end TextSetting

open SettingValue (Sets)

section Sets

variable {read : Option String} {before after : List (String × SettingValue)}

theorem ProjectSettings.ofSetting?_of_sets {settings : ProjectSettings} (text : ProjectText)
    (reads : ofSetting? (.table before) = some settings)
    (sets : Sets text.key read before after) :
    ofSetting? (.table after) = read.map fun value => text.put settings value := by
  obtain ⟨name, version, root⟩ := ofSetting?_eq_some.mp reads
  refine Option.ext fun found => ?_
  obtain ⟨foundName, foundVersion, foundRoot⟩ := found
  rw [ofSetting?_eq_some]
  cases text <;> simp only [ProjectText.key] at sets <;> cases read <;>
    simp [sets.optional_text?, sets.others, name, version, root, ProjectText.put]

theorem PackageSettings.ofSetting?_of_sets {usual settings : PackageSettings} (text : PackageText)
    (reads : ofSetting? usual (.table before) = some settings)
    (sets : Sets text.key read before after) :
    ofSetting? usual (.table after) = read.map fun value => text.put settings value := by
  obtain ⟨scheme, manager, normalization, environment, directory, pip, size⟩ :=
    ofSetting?_eq_some.mp reads
  refine Option.ext fun found => ?_
  obtain ⟨_, _, _, _, _, _, _⟩ := found
  rw [ofSetting?_eq_some]
  cases text <;> simp only [PackageText.key] at sets <;> cases read <;>
    simp [sets.orUsual_text?, sets.others, scheme, manager, normalization, environment, directory,
      pip, size, PackageText.put]

theorem LoggingSettings.ofSetting?_of_sets {usual settings : LoggingSettings}
    (reads : ofSetting? usual (.table before) = some settings)
    (sets : Sets "default" read before after) :
    ofSetting? usual (.table after) =
      read.map fun value => { settings with default := value } := by
  obtain ⟨-, modules⟩ := ofSetting?_eq_some.mp reads
  refine Option.ext fun found => ?_
  obtain ⟨foundDefault, foundModules⟩ := found
  rw [ofSetting?_eq_some]
  cases read <;> simp [sets.orUsual_text?, sets.others, modules]

end Sets

namespace Settings

variable {settings : Settings} {before after : List (String × SettingValue)}

/-- The group of a text that is read is a table if it is no list. -/
theorem exists_entries?_of_reads {usual : Settings} (setting : TextSetting)
    (reads : ofSetting? usual (.table before) = some settings)
    (unlisted : ∀ items, before.lookup setting.group ≠ some (.list items)) :
    ∃ old, SettingValue.entries? (before.lookup setting.group) = some old := by
  obtain ⟨-, -, project, -, packages, logging⟩ := ofSetting?_eq_some.mp reads
  cases setting with
  | project text =>
      refine SettingValue.exists_entries?_of_orUsual ["name", "version", "root"] 3
        (fun value scalar => ?_) project unlisted
      rw [ProjectSettings.ofSetting?, scalar]
      rfl
  | packages text =>
      refine SettingValue.exists_entries?_of_orUsual PackageSettings.names 4
        (fun value scalar => ?_) packages unlisted
      rw [PackageSettings.ofSetting?, scalar]
      rfl
  | defaultLevel =>
      refine SettingValue.exists_entries?_of_orUsual ["default", "modules"] 0
        (fun value scalar => ?_) logging unlisted
      rw [LoggingSettings.ofSetting?, scalar]
      rfl

/-- Settings with one text set in its group are read like those without it up to this text,
and not at all if what is set is read as no text. -/
theorem ofSetting?_of_sets {setting : TextSetting} {read : Option String}
    {processors : Nat} {old new : List (String × SettingValue)}
    (reads : ofSetting? (usual processors) (.table before) = some settings)
    (isTable : SettingValue.entries? (before.lookup setting.group) = some old)
    (group : after.lookup setting.group = some (.table new)) (sets : Sets setting.key read old new)
    (others : ∀ other, other ≠ setting.group → after.lookup other = before.lookup other) :
    ofSetting? (usual processors) (.table after) =
      read.map fun value => setting.put settings value := by
  obtain ⟨version, workspaceRoot, project, indexing, packages, logging⟩ :=
    ofSetting?_eq_some.mp reads
  refine Option.ext fun found => ?_
  obtain ⟨_, _, _, _, _, _⟩ := found
  rw [ofSetting?_eq_some]
  cases setting with
  | project text =>
      have nothing : ProjectSettings.ofSetting? (.table []) = some (usual processors).project := rfl
      rw [TextSetting.group] at isTable group others
      rw [SettingValue.orUsual_of_entries? nothing isTable] at project
      rw [group, orUsual, ProjectSettings.ofSetting?_of_sets text project sets]
      cases read <;>
        simp [others, version, workspaceRoot, indexing, packages, logging, TextSetting.put]
  | packages text =>
      have nothing : (usual processors).packages.ofSetting? (.table []) =
          some (usual processors).packages := rfl
      rw [TextSetting.group] at isTable group others
      rw [SettingValue.orUsual_of_entries? nothing isTable] at packages
      rw [group, orUsual, PackageSettings.ofSetting?_of_sets text packages sets]
      cases read <;>
        simp [others, version, workspaceRoot, project, indexing, logging, TextSetting.put]
  | defaultLevel =>
      have nothing : (usual processors).logging.ofSetting? (.table []) =
          some (usual processors).logging := rfl
      rw [TextSetting.group] at isTable group others
      rw [SettingValue.orUsual_of_entries? nothing isTable] at logging
      rw [group, orUsual, LoggingSettings.ofSetting?_of_sets logging sets]
      cases read <;>
        simp [others, version, workspaceRoot, project, indexing, packages, TextSetting.put]

/-! ## Loading with one more variable -/

/-- What a file and an environment set over what is usual. -/
def layers (processors : Nat) (file : SettingValue) (environment : List (String × String)) :
    SettingValue :=
  ((usual processors).toSetting.overlaid file).overlaid (.ofEnvironment environment)

variable {processors : Nat} {file : SettingValue} {environment : List (String × String)}

/-- One more variable for a text that is not in a list changes this text alone. -/
theorem layered?_append (setting : TextSetting) (written : String)
    (reads : layered? processors file environment = some settings)
    (unlisted : ∀ items,
      (layers processors file environment).get? setting.group ≠ some (.list items)) :
    layered? processors file (environment ++ [(setting.variableName, written)]) =
      (SettingValue.ofVariable written).text?.map fun value => setting.put settings value := by
  obtain ⟨layer, equal, isLayer⟩ := SettingValue.exists_ofEnvironment environment
  rw [layered?, equal] at reads
  rw [layers, equal] at unlisted
  rw [layered?, SettingValue.ofEnvironment_append setting.settingPath?_variableName, equal]
  generalize (usual processors).toSetting.overlaid file = base at reads unlisted ⊢
  obtain ⟨before, without⟩ := SettingValue.laidOver_table (some base) layer
  obtain ⟨after, within⟩ : ∃ after, SettingValue.laidOver (some base)
      ((SettingValue.table layer).overlaid
        ((SettingValue.ofVariable written).nested [setting.group, setting.key])) =
          .table after := by
    rw [SettingValue.overlaid_nested]
    exact SettingValue.laidOver_table _ _
  have whole : base.overlaid (.table layer) = .table before := without
  rw [whole] at reads unlisted
  obtain ⟨old, isTable⟩ := exists_entries?_of_reads setting reads unlisted
  obtain ⟨⟨new, group, sets⟩, others⟩ :=
    SettingValue.exists_sets_of_laidOver isLayer without within isTable
  rw [SettingValue.laidOver] at within
  rw [within]
  exact ofSetting?_of_sets reads isTable group sets others

/-- Loading reads a file and then only puts the layers together. -/
theorem runOn_loadFile {machine : Machine} {path : FilePath}
    (read : ((fileSettings path).runOn machine).1 = .ok file) :
    ((loadFile path).runOn machine).1 =
      (match layered? machine.processors file machine.environment with
      | some settings => .ok settings
      | none => .error .meaningless) := by
  have unchanged : ((fileSettings path).runOn machine).2 = machine :=
    (Attempt.runOn_of_looks (looks_fileSettings path) rfl).1
  have ran : (fileSettings path).runOn machine = (.ok file, machine) := Prod.ext read unchanged
  rw [loadFile, Attempt.runOn_bind, ran]
  dsimp only
  rw [Attempt.runOn_bind, Attempt.runOn_lift]
  dsimp only
  rw [Attempt.runOn_bind, Attempt.runOn_lift]
  change (Attempt.runOn (match layered? machine.processors file machine.environment with
    | some settings => pure settings
    | none => throw SettingsError.meaningless) machine).1 = _
  cases layered? machine.processors file machine.environment <;> rfl

end Settings

/-- A machine with one more environment variable, after those that it has. -/
def Machine.withVariable (machine : Machine) (name written : String) : Machine :=
  { machine with environment := machine.environment ++ [(name, written)] }

namespace Settings

theorem runOn_fileSettings_withVariable (machine : Machine) (path : FilePath)
    (name written : String) :
    ((fileSettings path).runOn (machine.withVariable name written)).1 =
      ((fileSettings path).runOn machine).1 :=
  have files : (machine.withVariable name written).files = machine.files := rfl
  (Attempt.runOn_of_looks (looks_fileSettings path) files).2

/-- Settings that load are read from what their file sets. -/
theorem exists_fileSettings_of_loadFile {machine : Machine} {path : FilePath}
    (loads : ((loadFile path).runOn machine).1 = .ok settings) :
    ∃ file, ((fileSettings path).runOn machine).1 = .ok file ∧
      layered? machine.processors file machine.environment = some settings := by
  cases read : ((fileSettings path).runOn machine).1 with
  | error error =>
      rw [loadFile, Attempt.runOn_bind, Attempt.runOn_eq_mk read] at loads
      cases loads
  | ok file =>
      refine ⟨file, rfl, ?_⟩
      rw [runOn_loadFile read] at loads
      split at loads
      case h_1 found equal => rw [equal, Except.ok.inj loads]
      case h_2 => cases loads

/-- Whether a group of settings is given as a list when the file at a path is loaded. -/
def isListed (machine : Machine) (path : FilePath) (group : String) : Bool :=
  match ((fileSettings path).runOn machine).1 with
  | .ok file =>
    match (layers machine.processors file machine.environment).get? group with
    | some (.list _) => true
    | _ => false
  | .error _ => false

/-- If settings load and the group of a text is not given as a list, one more environment
variable for this text changes it and nothing else, provided that what the variable is read
as is a text.  This is so for everything that is written like nothing else, and then the
text is what was written.  If the variable is read as something else, no settings load. -/
theorem loadFile_withVariable {machine : Machine} {path : FilePath} {settings : Settings}
    (setting : TextSetting) (written : String)
    (loads : ((loadFile path).runOn machine).1 = .ok settings)
    (unlisted : isListed machine path setting.group = false) :
    ((loadFile path).runOn (machine.withVariable setting.variableName written)).1 =
        (match (SettingValue.ofVariable written).text? with
        | some value => .ok (setting.put settings value)
        | none => .error .meaningless) ∧
      (SettingValue.IsLiteral written →
        ((loadFile path).runOn (machine.withVariable setting.variableName written)).1 =
          .ok (setting.put settings written)) := by
  obtain ⟨file, read, reads⟩ := exists_fileSettings_of_loadFile loads
  have noList : ∀ items, (layers machine.processors file machine.environment).get? setting.group ≠
      some (.list items) := by
    intro items isList
    rw [isListed, read] at unlisted
    simp [isList] at unlisted
  have readToo := (runOn_fileSettings_withVariable machine path setting.variableName written).trans
    read
  have changed : ((loadFile path).runOn (machine.withVariable setting.variableName written)).1 =
      (match (SettingValue.ofVariable written).text? with
      | some value => .ok (setting.put settings value)
      | none => .error .meaningless) := by
    rw [runOn_loadFile readToo, Machine.withVariable, layered?_append setting written reads noList]
    cases (SettingValue.ofVariable written).text? <;> rfl
  refine ⟨changed, fun literal => ?_⟩
  rw [changed, SettingValue.ofVariable_of_isLiteral literal]
  rfl

/-- A machine with a settings file that names a project. -/
def namedProject : Machine where
  files := ⟨.directory [("s.toml", .file "version = 3\n[project]\nname = \"file\"\n".toUTF8)], []⟩

/-- What the settings file of the machine sets. -/
def namedProjectSettings : Settings :=
  { usual 2 with version := 3, project := { name := some "file" } }

theorem loadFile_withVariable_of_release :
    ((loadFile ⟨"s.toml"⟩).runOn namedProject).1 = .ok namedProjectSettings ∧
      isListed namedProject ⟨"s.toml"⟩ "project" = false ∧
      SettingValue.IsLiteral "1.2.0" ∧
      ((loadFile ⟨"s.toml"⟩).runOn
          (namedProject.withVariable "SYMDEX_PROJECT__VERSION" "1.2.0")).1 =
        .ok { namedProjectSettings with project := ⟨some "file", some "1.2.0", none⟩ } := by
  have loads : ((loadFile ⟨"s.toml"⟩).runOn namedProject).1 = .ok namedProjectSettings := by
    decide +kernel
  have unlisted : isListed namedProject ⟨"s.toml"⟩ "project" = false := by decide +kernel
  have literal : SettingValue.IsLiteral "1.2.0" := by
    refine ⟨by decide +kernel, ?_, by decide, by decide +kernel, by decide +kernel⟩
    rintro c ⟨⟩
    decide
  exact ⟨loads, unlisted, literal,
    (loadFile_withVariable (.project .version) "1.2.0" loads unlisted).2 literal⟩

/-- A version that looks like a number with a point is read as one, and no settings load. -/
theorem loadFile_withVariable_of_decimal :
    ((loadFile ⟨"s.toml"⟩).runOn namedProject).1 = .ok namedProjectSettings ∧
      ((loadFile ⟨"s.toml"⟩).runOn
          (namedProject.withVariable "SYMDEX_PROJECT__VERSION" "1.10")).1 =
        .error .meaningless := by
  decide +kernel

end Settings

end SymbolIndex
