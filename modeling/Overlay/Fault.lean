import Overlay.Text.Quoted

/-!
# Faults

Why a resolution can fail.  A fault holds its causes as data; the wording is
computed from them here and nowhere else.
-/

namespace Overlay

/-- Why a file or a directory could not be read. -/
inductive ReadFault where
  | notFound
  | notDirectory
  | isDirectory
  | notText
  | refused
  /-- The path, or a name in it, is longer than the system allows. -/
  | tooLong
  /-- The path has a null character in it. -/
  | interrupted
  deriving DecidableEq, Inhabited

/-- The fault as the system describes it. -/
def ReadFault.message : ReadFault → String
  | .notFound => "No such file or directory (os error 2)"
  | .notDirectory => "Not a directory (os error 20)"
  | .isDirectory => "Is a directory (os error 21)"
  | .notText => "stream did not contain valid UTF-8"
  | .refused => "Permission denied (os error 13)"
  | .tooLong => "File name too long (os error 36)"
  | .interrupted => "file name contained an unexpected NUL byte"

/-- A module that overrides another one. -/
structure Overrider where
  name : String
  provider : String
  deriving DecidableEq, Inhabited

/-- A module overridden by more than one other. -/
structure DoubleOverride where
  target : String
  targetProvider : String
  overriders : List Overrider
  deriving DecidableEq, Inhabited

namespace DoubleOverride

/-- One overrider in words. -/
def describe (overrider : Overrider) : String :=
  s!"'{overrider.name}' (provided by '{overrider.provider}')"

/-- Items joined by commas, the last two by "and". -/
def enumeration : List String → String
  | [] => ""
  | [item] => item
  | [first, last] => first ++ " and " ++ last
  | first :: rest => first ++ ", " ++ enumeration rest

/-- The fault in words. -/
def message (fault : DoubleOverride) : String :=
  s!"Module '{fault.target}' provided by '{fault.targetProvider}' is overridden more than once by "
    ++ enumeration (fault.overriders.map describe)

end DoubleOverride

/-- Modules that override each other in a circle.  `path` walks round once and
ends where it began; `unresolved` names every module that could not be placed. -/
structure OverrideCycle where
  path : List String
  unresolved : List String
  deriving DecidableEq, Inhabited

/-- The fault in words. -/
def OverrideCycle.message (fault : OverrideCycle) : String :=
  "Circular override dependency between DI modules: " ++ " -> ".intercalate fault.path

/-- What went wrong with a modules directory: the system refused it, or a source
of its own kind reported a failure. -/
inductive DirectoryFault where
  | system (fault : ReadFault)
  | reported (text : String)
  deriving DecidableEq, Inhabited

/-- The fault in words. -/
def DirectoryFault.message : DirectoryFault → String
  | .system fault => fault.message
  | .reported text => text

/-- Why a source of contributions failed. -/
inductive DiscoveryFault where
  | directory (path : String) (fault : DirectoryFault)
  | manifest (path reason : String)
  | other (text : String)
  deriving DecidableEq, Inhabited

/-- The fault in words. -/
def DiscoveryFault.message : DiscoveryFault → String
  | .directory path fault =>
      "Failed to read modules directory " ++ Text.quoted path ++ ": " ++ fault.message
  | .manifest path reason => "Invalid module manifest " ++ Text.quoted path ++ ": " ++ reason
  | .other text => text

/-- Why modules could not be resolved. -/
inductive Fault where
  | doubleOverride (fault : DoubleOverride)
  | cycle (fault : OverrideCycle)
  | discovery (fault : DiscoveryFault)
  | manifest (text : String)
  deriving DecidableEq, Inhabited

namespace Fault

/-- The fault in words. -/
def message : Fault → String
  | .doubleOverride fault => fault.message
  | .cycle fault => fault.message
  | .discovery fault => "Module auto-discovery failed: " ++ fault.message
  | .manifest text => "Invalid module manifest: " ++ text

/-- The fault beneath, in words, where there is one. -/
def source? : Fault → Option String
  | .discovery fault => some fault.message
  | _ => none

/-- Whether the fault lies in how the modules override each other. -/
def isStructural : Fault → Bool
  | .doubleOverride _ | .cycle _ => true
  | .discovery _ | .manifest _ => false

/-- The status with which a program ends on the fault. -/
def exitCode (_ : Fault) : Nat := 1

end Fault

end Overlay
