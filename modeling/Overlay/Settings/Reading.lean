import Overlay.FileTree
import Overlay.Json.Reader
import Overlay.Settings.Basic
import Overlay.Toml.Document

/-!
# Reading settings

Settings are read from JSON and from TOML by the same rules.  A section gives its
fields by name, where unknown names do not matter and a known one may come only
once, or as a list in the order of declaration.  Items of such a list beyond the
last field are refused in JSON and do not matter in TOML.  What is not given has its
default value; what is given has to be of the right kind.
-/

namespace Overlay

/-- What the rules need to know about the values of a format. -/
structure SettingsFormat (α : Type) where
  /-- The members of an object, if their names can be read. -/
  members? : α → Option (List (String × α))
  items? : α → Option (List α)
  bool? : α → Option Bool
  text? : α → Option String
  isNull : α → Bool
  /-- Whether a list that stands for a section may have more items than the section
  has fields. -/
  allowsSurplus : Bool

namespace SettingsFormat

/-- JSON documents. -/
def json : SettingsFormat Json where
  members?
    | .object members =>
        members.mapM fun (name, value) => name.value?.map (·, value)
    | _ => none
  items?
    | .array items => some items
    | _ => none
  bool?
    | .bool value => some value
    | _ => none
  text?
    | .string text => text.value?
    | _ => none
  isNull
    | .null => true
    | _ => false
  allowsSurplus := false

/-- TOML values. -/
def toml : SettingsFormat Toml.Value where
  members? := Toml.Value.entries?
  items? := Toml.Value.items?
  bool? := Toml.Value.boolean?
  text? := Toml.Value.text?
  isNull _ := false
  allowsSurplus := true

variable {α : Type} (format : SettingsFormat α)

/-- The value of a field given by name; a name given twice is refused. -/
def named (members : List (String × α)) (name : String) : Option (Option α) :=
  match members.filter (fun member => member.1 = name) with
  | [] => some none
  | [member] => some (some member.2)
  | _ => none

/-- The values of the fields of a section, in the order of their names. -/
def fields (names : List String) (value : α) : Option (List (Option α)) :=
  match format.items? value with
  | some items =>
      if items.length ≤ names.length ∨ format.allowsSurplus then
        let taken := items.take names.length
        some (taken.map some ++ List.replicate (names.length - taken.length) none)
      else none
  | none => do
      let members ← format.members? value
      names.mapM (named members)

/-- Reads a field that may be absent. -/
def given {β : Type} (read : α → Option β) (fallback : β) : Option α → Option β
  | some value => read value
  | none => some fallback

/-- Reads a value that may be null. -/
def nullable {β : Type} (read : α → Option β) (value : α) : Option (Option β) :=
  if format.isNull value then some none else (read value).map some

/-- Reads the section on modules. -/
def modules (value : α) : Option ModuleSettings := do
  match ← format.fields ["auto_load", "modules_dir", "report_deprecated"] value with
  | [autoLoad, directory, reportDeprecated] =>
      let defaults : ModuleSettings := {}
      some {
        autoLoad := ← given format.bool? defaults.autoLoad autoLoad
        directory := ← given format.text? defaults.directory directory
        reportDeprecated := ← given format.bool? defaults.reportDeprecated reportDeprecated }
  | _ => none

/-- Reads the section on the log. -/
def logging (value : α) : Option LogSettings := do
  match ← format.fields ["filter", "json_format"] value with
  | [filter, jsonFormat] =>
      some {
        filter := ← given (format.nullable format.text?) none filter
        jsonFormat := ← given format.bool? false jsonFormat }
  | _ => none

/-- Reads settings. -/
def settings (value : α) : Option Settings := do
  match ← format.fields ["modules", "logging"] value with
  | [modules, logging] =>
      some {
        modules := ← given format.modules {} modules
        logging := ← given (format.nullable format.logging) none logging }
  | _ => none

end SettingsFormat

namespace Settings

/-- The settings that a JSON text spells. -/
def ofJsonText? (text : String) : Option Settings :=
  (Json.parse? text).bind SettingsFormat.json.settings

/-- The settings that a TOML text spells. -/
def ofTomlText? (text : String) : Option Settings :=
  (Toml.parse? text).bind fun entries => SettingsFormat.toml.settings (.table entries)

/-- The last name of a path, if the path ends in a name. -/
def fileName? (path : String) : Option String :=
  match ((FileSystem.steps path).filter fun step => step ≠ "" ∧ step ≠ ".").getLast? with
  | some name => if name = ".." then none else some name
  | none => none

/-- What follows the last dot of a path's last name, unless the dot comes first. -/
def extension? (path : String) : Option String := do
  let name ← fileName? path
  let reversed := name.toList.reverse
  match reversed.dropWhile (· ≠ '.') with
  | _ :: _ :: _ => some (String.ofList (reversed.takeWhile (· ≠ '.')).reverse)
  | _ => none

/-- Loads settings from a file of JSON. -/
def loadJson (files : FileSystem) (path : String) : Except SettingsFault Settings := do
  let text ← (files.readText path).mapError .unreadable
  match ofJsonText? text with
  | some settings => .ok settings
  | none => .error .malformedJson

/-- Loads settings from a file of TOML. -/
def loadToml (files : FileSystem) (path : String) : Except SettingsFault Settings := do
  let text ← (files.readText path).mapError .unreadable
  match ofTomlText? text with
  | some settings => .ok settings
  | none => .error .malformedToml

/-- Loads settings from a file, in the format that its extension names. -/
def load (files : FileSystem) (path : String) : Except SettingsFault Settings :=
  match extension? path with
  | some "toml" => loadToml files path
  | some "json" => loadJson files path
  | other => .error (.unsupported other path)

/-- The text that is written for settings. -/
def render (settings : Settings) : String := settings.toJson.render

/-- Saves settings in a file. -/
def save (settings : Settings) (files : FileSystem) (path : String) :
    Except SettingsFault FileSystem :=
  (files.writeText path settings.render).mapError .unreadable

end Settings

end Overlay
