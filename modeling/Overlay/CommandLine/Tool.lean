import Overlay.Assembly
import Overlay.CommandLine.Arguments
import Overlay.Settings.Environment
import Overlay.Settings.Reading

/-!
# The tool

Resolves the modules that settings name and prints them, one line or one record
for each effective module.  Settings come from four layers, later ones first:
arguments, environment, file, defaults.  The status tells settings that cannot be
used from modules that cannot be resolved.
-/

namespace Overlay

/-- What a run of the tool leaves behind. -/
structure Outcome where
  status : Nat
  output : String
  errors : String
  deriving DecidableEq, Inhabited

namespace Tool

/-- The name of the tool and its version. -/
def versionLine : String := "modweave-resolve 0.1.0\n"

/-- How the tool is used. -/
def usage : String :=
  "Resolve module overrides and print the load order\n\n" ++
  "Usage: modweave-resolve [OPTIONS]\n\nOptions:\n" ++
  "  -c, --config <CONFIG>            Bootstrap config file (.json or .toml)\n" ++
  "  -m, --modules-dir <MODULES_DIR>  Modules directory (overrides the config file)\n" ++
  "      --log <LOG>                  Log filter (e.g. \"debug\", \"modweave=trace\")\n" ++
  "  -f, --format <FORMAT>            Output format [default: text] " ++
  "[possible values: text, json]\n" ++
  "  -h, --help                       Print help\n" ++
  "  -V, --version                    Print version\n"

/-- The settings of the file that the arguments name, or the default ones. -/
def fileSettings (files : FileSystem) (arguments : Arguments) :
    Except SettingsFault Settings :=
  match arguments.config with
  | some path => Settings.load files path
  | none => .ok {}

/-- The settings as changed by the arguments.  Naming a modules directory asks for
its modules to be loaded. -/
def withArguments (settings : Settings) (arguments : Arguments) : Settings :=
  let directed :=
    match arguments.directory with
    | some directory =>
        { settings with modules := { settings.modules with directory, autoLoad := true } }
    | none => settings
  match arguments.filter with
  | some filter => directed.withFilter filter
  | none => directed

/-- The settings that are in force. -/
def loadSettings (files : FileSystem) (environment : Environment) (arguments : Arguments) :
    Except SettingsFault Settings := do
  let settings ← fileSettings files arguments
  (withArguments (settings.withEnvironment environment) arguments).check

/-- The line for an effective module. -/
def line (module : EffectiveModule) : String :=
  let bases := module.layers.dropLast
  module.name ++ " [" ++ module.provider ++ "]" ++
    (if bases.isEmpty then "" else " <- " ++ ", ".intercalate bases) ++
    (if module.deprecated then " (deprecated)" else "")

/-- The lines for effective modules. -/
def renderText (modules : List EffectiveModule) : String :=
  "\n".intercalate (modules.map line)

/-- Pairs in ascending order of their keys. -/
def byKey {α : Type} (pairs : List (String × α)) : List (String × α) :=
  pairs.mergeSort fun left right => left.1 ≤ right.1

/-- The record for an effective module, with its fields in ascending order. -/
def toRecord (module : EffectiveModule) : Json :=
  .record [
    ("configs", .record ((byKey module.configs.entries).map fun (path, label) =>
      (path, .text label))),
    ("deprecated", .bool module.deprecated),
    ("description", .optionalText module.description),
    ("layers", .array (module.layers.map .text)),
    ("name", .text module.name),
    ("provider", .text module.provider)]

/-- The records for effective modules. -/
def renderJson (modules : List EffectiveModule) : String :=
  (Json.array (modules.map toRecord)).render

/-- Effective modules in a format. -/
def render (format : OutputFormat) (modules : List EffectiveModule) : String :=
  match format with
  | .text => renderText modules
  | .json => renderJson modules

/-- Resolves the modules that settings name. -/
def resolveWith (registrations : List Registration) (files : FileSystem)
    (settings : Settings) : Except Fault (List EffectiveModule) :=
  ((Assembly.ofSettings registrations settings).resolved files).value

/-- Resolves and prints as the arguments say. -/
def report (registrations : List Registration) (files : FileSystem)
    (environment : Environment) (arguments : Arguments) : Outcome :=
  match loadSettings files environment arguments with
  | .error fault => ⟨2, "", "Invalid configuration: " ++ fault.message ++ "\n"⟩
  | .ok settings =>
      match resolveWith registrations files settings with
      | .error fault => ⟨fault.exitCode, "", fault.message ++ "\n"⟩
      | .ok modules => ⟨0, render (arguments.format.getD .text) modules ++ "\n", ""⟩

/-- Runs the tool. -/
def run (registrations : List Registration) (files : FileSystem) (environment : Environment)
    (arguments : List String) : Outcome :=
  match Arguments.read arguments with
  | .error fault => ⟨2, "", "error: " ++ fault.message ++ "\n\n" ++ usage⟩
  | .ok .version => ⟨0, versionLine, ""⟩
  | .ok .help => ⟨0, usage, ""⟩
  | .ok (.resolve found) => report registrations files environment found

end Tool

end Overlay
