import SymbolIndex.Settings.Basic
import SymbolIndex.Settings.Value

/-!
# The meaning of settings

What values set.  Something that is not set has its usual value; something that
is set to a value of the wrong kind makes all settings meaningless.  A group of
settings may also be given as a list in which the order tells what is set.
-/

namespace SymbolIndex

namespace SettingValue

def text? : SettingValue → Option String
  | text value => some value
  | _ => none

def path? (value : SettingValue) : Option FilePath :=
  value.text?.map FilePath.mk

/-- The number of a value, which must be below a bound. -/
def natural? (bound : Nat) : SettingValue → Option Nat
  | integer value => if 0 ≤ value && value < bound then some value.toNat else none
  | _ => none

def char? : SettingValue → Option Char
  | text value =>
    match value.toList with
    | [c] => some c
    | _ => none
  | _ => none

/-- The values of a group's settings in the order of `names`.  A list has at
least `least` items, and those beyond the names are passed over. -/
def group? (names : List String) (least : Nat) :
    SettingValue → Option (List (Option SettingValue))
  | table entries => some (names.map fun name => entries.lookup name)
  | list items =>
    if least ≤ items.length then
      some ((items.map some ++ List.replicate names.length none).take names.length)
    else none
  | _ => none

/-- What a value sets, or the usual value if nothing is set. -/
def orUsual {α : Type} (usual : α) (read : SettingValue → Option α) :
    Option SettingValue → Option α
  | none => some usual
  | some value => read value

/-- What a value sets if something is set. -/
def optional {α : Type} (read : SettingValue → Option α) :
    Option SettingValue → Option (Option α)
  | none => some none
  | some value => (read value).map some

end SettingValue

namespace FailurePolicy

def ofSetting? : SettingValue → Option FailurePolicy
  | .text name => ([proceed, abort].map fun policy => (policy.text, policy)).lookup name
  | _ => none

end FailurePolicy

namespace Normalization

def ruleName : Normalization → String
  | verbatim => "verbatim"
  | firstSeparator _ _ => "first_separator"

def ofRule? (name : String) (separator replacement : Option SettingValue) :
    Option Normalization :=
  match name with
  | "verbatim" => some .verbatim
  | "first_separator" => do
    let separator ← (← separator).char?
    let replacement ← (← replacement).char?
    return .firstSeparator separator replacement
  | _ => none

def ofSetting? : SettingValue → Option Normalization
  | .table entries => do
    let rule ← (← entries.lookup "rule").text?
    ofRule? rule (entries.lookup "from") (entries.lookup "to")
  | .list [.text "verbatim"] => some .verbatim
  | .list [.text "first_separator", separator, replacement] =>
    ofRule? "first_separator" separator replacement
  | _ => none

end Normalization

namespace ProjectSettings

def ofSetting? (value : SettingValue) : Option ProjectSettings := do
  match ← value.group? ["name", "version", "root"] 3 with
  | [name, version, root] =>
    return {
      name := ← SettingValue.optional SettingValue.text? name
      version := ← SettingValue.optional SettingValue.text? version
      root := ← SettingValue.optional SettingValue.path? root }
  | _ => none

end ProjectSettings

namespace IndexingSettings

def ofSetting? (usual : IndexingSettings) (value : SettingValue) :
    Option IndexingSettings := do
  match ← value.group? ["threads", "analysis_dir", "output", "failure_policy"] 0 with
  | [threads, analysisDirectory, output, policy] =>
    return {
      threads := ← SettingValue.orUsual usual.threads (·.natural? UInt64.size) threads
      analysisDirectory :=
        ← SettingValue.orUsual usual.analysisDirectory SettingValue.path? analysisDirectory
      output := ← SettingValue.orUsual usual.output SettingValue.path? output
      policy := ← SettingValue.orUsual usual.policy FailurePolicy.ofSetting? policy }
  | _ => none

end IndexingSettings

namespace PackageSettings

def names : List String :=
  ["scheme", "manager", "normalization", "environment", "cache_dir", "pip_command",
    "pip_batch_size"]

def ofSetting? (usual : PackageSettings) (value : SettingValue) :
    Option PackageSettings := do
  match ← value.group? names 4 with
  | [scheme, manager, normalization, environment, cacheDirectory, pipCommand,
      pipBatchSize] =>
    return {
      scheme := ← SettingValue.orUsual usual.scheme SettingValue.text? scheme
      manager := ← SettingValue.orUsual usual.manager SettingValue.text? manager
      normalization :=
        ← SettingValue.orUsual usual.normalization Normalization.ofSetting? normalization
      environment := ← SettingValue.optional SettingValue.path? environment
      cacheDirectory :=
        ← SettingValue.orUsual usual.cacheDirectory SettingValue.path? cacheDirectory
      pipCommand := ← SettingValue.orUsual usual.pipCommand SettingValue.text? pipCommand
      pipBatchSize :=
        ← SettingValue.orUsual usual.pipBatchSize (·.natural? UInt64.size) pipBatchSize }
  | _ => none

end PackageSettings

namespace LoggingSettings

def modules? : SettingValue → Option (List (String × String))
  | .table entries => do
    let levels ← entries.mapM fun (name, value) => do return (name, ← value.text?)
    return levels.mergeSort fun a b => a.1 ≤ b.1
  | _ => none

def ofSetting? (usual : LoggingSettings) (value : SettingValue) :
    Option LoggingSettings := do
  match ← value.group? ["default", "modules"] 0 with
  | [default, modules] =>
    return {
      default := ← SettingValue.orUsual usual.default SettingValue.text? default
      modules := ← SettingValue.orUsual usual.modules modules? modules }
  | _ => none

end LoggingSettings

namespace Settings

def ofSetting? (usual : Settings) (value : SettingValue) : Option Settings := do
  let names := ["version", "workspace_root", "project", "indexing", "packages", "logging"]
  match ← value.group? names 2 with
  | [version, workspaceRoot, project, indexing, packages, logging] =>
    return {
      version := ← SettingValue.orUsual usual.version (·.natural? UInt32.size) version
      workspaceRoot := ← SettingValue.optional SettingValue.path? workspaceRoot
      project := ← SettingValue.orUsual usual.project ProjectSettings.ofSetting? project
      indexing :=
        ← SettingValue.orUsual usual.indexing usual.indexing.ofSetting? indexing
      packages :=
        ← SettingValue.orUsual usual.packages usual.packages.ofSetting? packages
      logging :=
        ← SettingValue.orUsual usual.logging usual.logging.ofSetting? logging }
  | _ => none

end Settings

end SymbolIndex
