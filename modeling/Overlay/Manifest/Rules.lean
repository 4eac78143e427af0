import Overlay.Journal
import Overlay.Manifest.Basic
import Overlay.Text.Alphanumeric
import Overlay.Text.Blank

/-!
# Rules for manifests

What a manifest has to obey beyond being one: names that can stand in messages
and paths, settings with a path and a type, keys that are not blank.  The check
lists every violation, in the order in which the manifest is read.
-/

namespace Overlay

/-- A rule that a manifest breaks. -/
inductive ManifestProblem where
  | emptyName
  | invalidName (name : String)
  | invalidTarget (name : String)
  | overridesItself (name : String)
  | invalidPath (path : String)
  | untypedPath (path : String)
  | blankKey
  deriving DecidableEq, Inhabited

/-- The problem in words. -/
def ManifestProblem.message : ManifestProblem → String
  | .emptyName => "Module name cannot be empty"
  | .invalidName name =>
      s!"Invalid module name: {name} (must be alphanumeric with dashes/underscores)"
  | .invalidTarget name => s!"Invalid override target name: {name}"
  | .overridesItself name => s!"Module {name} cannot override itself"
  | .invalidPath path => s!"Invalid config path: '{path}'"
  | .untypedPath path => s!"Config path '{path}' has no declared type"
  | .blankKey => "Binding key cannot be empty"

/-- What the rules make of a manifest. -/
inductive ManifestVerdict where
  | valid
  | invalid (problems : List ManifestProblem)
  deriving DecidableEq, Inhabited

namespace Manifest

/-- The greatest length of a name, in bytes of UTF-8. -/
def nameLimit : Nat := 64

/-- Whether a character may stand in a name. -/
def isNameChar (char : Char) : Bool :=
  Text.isAlphanumeric char || char == '-' || char == '_'

/-- Whether a text is a module name: it starts with a letter or digit, has only
letters, digits, dashes and underscores, and is not too long. -/
def isName (text : String) : Bool :=
  match text.toList with
  | [] => false
  | first :: rest =>
      text.utf8ByteSize ≤ nameLimit && Text.isAlphanumeric first &&
        (first :: rest).all isNameChar

/-- Whether a path has a name between any two dots. -/
def isPath (path : String) : Bool :=
  (Text.splitAt '.' path.toList).all fun segment => !segment.all Text.isBlankChar

/-- What is wrong with the name. -/
def nameProblems (name : String) : List ManifestProblem :=
  if name.isEmpty then [.emptyName]
  else if isName name then [] else [.invalidName name]

/-- What is wrong with an override target of the named module. -/
def targetProblems (name target : String) : List ManifestProblem :=
  if !isName target then [.invalidTarget target]
  else if target = name then [.overridesItself target] else []

/-- What is wrong with a declared setting. -/
def configProblems (path label : String) : List ManifestProblem :=
  (if isPath path then [] else [.invalidPath path]) ++
    (if Text.isBlank label then [.untypedPath path] else [])

/-- What is wrong with the key of a binding. -/
def keyProblems (key : String) : List ManifestProblem :=
  if Text.isBlank key then [.blankKey] else []

/-- Everything that is wrong with a manifest. -/
def problems (manifest : Manifest) : List ManifestProblem :=
  nameProblems manifest.name ++
    manifest.overrides.flatMap (targetProblems manifest.name) ++
    manifest.configs.entries.flatMap (fun (path, label) => configProblems path label) ++
    manifest.bindings.keys.flatMap keyProblems

/-- A manifest is valid if nothing is wrong with it. -/
def verdict (manifest : Manifest) : ManifestVerdict :=
  match manifest.problems with
  | [] => .valid
  | found => .invalid found

/-- The problems of a manifest, told to the log. -/
def check (manifest : Manifest) : Journaled (List ManifestProblem) :=
  match manifest.verdict with
  | .valid => do
      Journaled.log .debug s!"Manifest validation passed for module: {manifest.name}"
      pure []
  | .invalid found => do
      Journaled.log .warn
        (s!"Manifest validation failed for module {manifest.name}: " ++
          Text.quotedList (found.map ManifestProblem.message))
      pure found

end Manifest

end Overlay
