import Overlay.Settings.Basic

/-!
# Settings from the environment

Three variables take precedence over what a file says.  A variable that is blank
or not a text counts as unset, and a flag that is neither of the two truth values
is passed over.
-/

namespace Overlay

/-- The variables of the environment with their values. -/
structure Environment where
  entries : List (String × ByteArray)
  deriving Inhabited

namespace Environment

/-- The value of a variable, if it is a text. -/
def text? (environment : Environment) (name : String) : Option String :=
  (environment.entries.find? fun entry => entry.1 = name).bind fun entry =>
    String.fromUTF8? entry.2

/-- The value of a variable, if it is a text that is not blank. -/
def setting? (environment : Environment) (name : String) : Option String :=
  (environment.text? name).filter fun text => !Text.isBlank text

/-- The truth value that a word stands for, whatever blanks surround it and
whatever the case of its letters. -/
def flagOf? (text : String) : Option Bool :=
  let word := String.ofList ((Text.trimmed text.toList).map Text.lowerAscii)
  if word ∈ ["true", "1", "yes", "on"] then some true
  else if word ∈ ["false", "0", "no", "off"] then some false
  else none

/-- The truth value of a variable. -/
def flag? (environment : Environment) (name : String) : Option Bool :=
  (environment.setting? name).bind flagOf?

/-- The variable that switches automatic loading. -/
def autoLoadVariable : String := "MODWEAVE_AUTO_LOAD"

/-- The variable that names the modules directory. -/
def directoryVariable : String := "MODWEAVE_MODULES_DIR"

/-- The variable that gives the log filter. -/
def filterVariable : String := "MODWEAVE_LOG"

end Environment

namespace Settings

/-- The settings as changed by the environment. -/
def withEnvironment (settings : Settings) (environment : Environment) : Settings :=
  let modules : ModuleSettings :=
    { settings.modules with
      autoLoad :=
        (environment.flag? Environment.autoLoadVariable).getD settings.modules.autoLoad
      directory :=
        (environment.setting? Environment.directoryVariable).getD settings.modules.directory }
  let changed := { settings with modules }
  match environment.setting? Environment.filterVariable with
  | some filter => changed.withFilter filter
  | none => changed

end Settings

end Overlay
