import SymbolIndex.Settings.Reader
import SymbolIndex.Toml.Printer

/-!
# Writing settings

Settings as values, and values as text.  The text of a table has a line for each
entry that is no table, and then a section for each one that is.
-/

namespace SymbolIndex

namespace SettingValue

/-- The entry that sets something, if it is set. -/
def entry? {α : Type} (name : String) (write : α → SettingValue) (value : Option α) :
    List (String × SettingValue) :=
  (value.map fun value => (name, write value)).toList

def ofPath (path : FilePath) : SettingValue := text path.text

end SettingValue

namespace Normalization

def toSetting (rule : Normalization) : SettingValue :=
  match rule with
  | verbatim => .table [("rule", .text rule.ruleName)]
  | firstSeparator separator replacement =>
    .table [
      ("rule", .text rule.ruleName),
      ("from", .text (String.singleton separator)),
      ("to", .text (String.singleton replacement))]

end Normalization

namespace ProjectSettings

def toSetting (settings : ProjectSettings) : SettingValue :=
  .table (SettingValue.entry? "name" .text settings.name ++
    SettingValue.entry? "version" .text settings.version ++
    SettingValue.entry? "root" .ofPath settings.root)

end ProjectSettings

namespace IndexingSettings

def toSetting (settings : IndexingSettings) : SettingValue :=
  .table [
    ("threads", .integer settings.threads),
    ("analysis_dir", .ofPath settings.analysisDirectory),
    ("output", .ofPath settings.output),
    ("failure_policy", .text settings.policy.text)]

end IndexingSettings

namespace PackageSettings

def toSetting (settings : PackageSettings) : SettingValue :=
  .table ([
    ("scheme", .text settings.scheme),
    ("manager", .text settings.manager),
    ("normalization", settings.normalization.toSetting)] ++
    SettingValue.entry? "environment" .ofPath settings.environment ++ [
    ("cache_dir", .ofPath settings.cacheDirectory),
    ("pip_command", .text settings.pipCommand),
    ("pip_batch_size", .integer settings.pipBatchSize)])

end PackageSettings

namespace LoggingSettings

def toSetting (settings : LoggingSettings) : SettingValue :=
  .table [
    ("default", .text settings.default),
    ("modules", .table (settings.modules.map fun (name, level) => (name, .text level)))]

end LoggingSettings

namespace Settings

def toSetting (settings : Settings) : SettingValue :=
  .table (("version", .integer settings.version) ::
    SettingValue.entry? "workspace_root" .ofPath settings.workspaceRoot ++ [
    ("project", settings.project.toSetting),
    ("indexing", settings.indexing.toSetting),
    ("packages", settings.packages.toSetting),
    ("logging", settings.logging.toSetting)])

end Settings

namespace SettingValue

/-- The lines of the entries that are no tables.  An integer must fit into 64
bits with its sign. -/
def lines? : List (String × SettingValue) → Option (List String)
  | [] => some []
  | (name, value) :: rest => do
    let more ← lines? rest
    match value with
    | text value => return Toml.line name (Toml.printString value) :: more
    | integer value =>
      if value ≤ Int64.maxValue.toInt then return Toml.line name (toString value) :: more
      else none
    | bool value => return Toml.line name (toString value) :: more
    | table _ => return more
    | real | list _ => none

mutual

/-- The text of a table at a path, after that of the table around it. -/
def section? (path : List String) : SettingValue → Option String
  | table entries => do
    let header := "\n[" ++ String.intercalate "." (path.map Toml.printKey) ++ "]\n"
    let lines ← lines? entries
    let sections ← sections? path entries
    return header ++ String.join lines ++ sections
  | _ => some ""

def sections? (path : List String) : List (String × SettingValue) → Option String
  | [] => some ""
  | (name, value) :: rest => do
    let first ← section? (path ++ [name]) value
    let more ← sections? path rest
    return first ++ more

end

def document? : SettingValue → Option String
  | table entries => do
    let lines ← lines? entries
    let sections ← sections? [] entries
    return String.join lines ++ sections
  | _ => none

end SettingValue

namespace Settings

/-- The text of settings, unless a number in them is too large to be written. -/
def print? (settings : Settings) : Option String :=
  settings.toSetting.document?

end Settings

end SymbolIndex
