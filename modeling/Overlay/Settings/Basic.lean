import Overlay.Fault
import Overlay.Json.Printer
import Overlay.Text.Blank

/-!
# Settings

How a program loads modules and writes its log.  An absent logging section, one
without a filter and one with an empty filter are three different settings, and
all three survive being written to a file.
-/

namespace Overlay

/-- How modules are found and reported. -/
structure ModuleSettings where
  /-- Whether registered modules and manifests are loaded by themselves. -/
  autoLoad : Bool := true
  /-- The directory below which manifests lie. -/
  directory : String := "modules"
  /-- Whether deprecated modules give an alert. -/
  reportDeprecated : Bool := true
  deriving DecidableEq, Inhabited

/-- How the log is written. -/
structure LogSettings where
  filter : Option String := none
  jsonFormat : Bool := false
  deriving DecidableEq, Inhabited

/-- Everything that a program can be told. -/
structure Settings where
  modules : ModuleSettings := {}
  logging : Option LogSettings := none
  deriving DecidableEq, Inhabited

/-- Why settings cannot be used. -/
inductive SettingsFault where
  | unreadable (fault : ReadFault)
  | malformedJson
  | malformedToml
  | unsupported (extension : Option String) (path : String)
  | blankDirectory
  | blankFilter
  deriving DecidableEq, Inhabited

/-- The fault in words. -/
def SettingsFault.message : SettingsFault → String
  | .unreadable fault => fault.message
  | .malformedJson => "not a JSON document of settings"
  | .malformedToml => "not a TOML document of settings"
  | .unsupported extension path =>
      "Unsupported config format " ++ Text.quotedOption extension ++ " for " ++ path ++
        "; expected .json or .toml"
  | .blankDirectory => "modules_dir must not be empty when auto_load is enabled"
  | .blankFilter => "logging filter must not be empty if set"

namespace Settings

/-- The fault of settings that contradict themselves. -/
def problem? (settings : Settings) : Option SettingsFault :=
  if settings.modules.autoLoad && Text.isBlank settings.modules.directory then
    some .blankDirectory
  else
    match settings.logging.bind LogSettings.filter with
    | some filter => if Text.isBlank filter then some .blankFilter else none
    | none => none

/-- The settings, if they do not contradict themselves. -/
def check (settings : Settings) : Except SettingsFault Settings :=
  match settings.problem? with
  | some fault => .error fault
  | none => .ok settings

/-- The settings with a log filter; a logging section is made where there is none. -/
def withFilter (settings : Settings) (filter : String) : Settings :=
  { settings with logging := some { settings.logging.getD {} with filter := some filter } }

/-- The filter for the log: one given from outside comes before the one in the
settings. -/
def effectiveFilter (outside configured : Option String) : String :=
  (outside.or configured).getD "info"

end Settings

/-- The section on modules as a document. -/
def ModuleSettings.toJson (settings : ModuleSettings) : Json :=
  .record [
    ("auto_load", .bool settings.autoLoad),
    ("modules_dir", .text settings.directory),
    ("report_deprecated", .bool settings.reportDeprecated)]

/-- The section on the log as a document. -/
def LogSettings.toJson (settings : LogSettings) : Json :=
  .record [
    ("filter", .optionalText settings.filter),
    ("json_format", .bool settings.jsonFormat)]

/-- The settings as a document. -/
def Settings.toJson (settings : Settings) : Json :=
  .record [
    ("modules", settings.modules.toJson),
    ("logging", (settings.logging.map LogSettings.toJson).getD .null)]

end Overlay
