import Overlay.FileTree
import Overlay.Manifest.Rules

/-!
# Discovery

Contributions that nobody registered by hand come from sources: modules
registered with the program, manifests below a directory, and sources of a
program's own making.  A chain asks its sources in order and stops at the first
failure.  What a directory yields does not depend on the order in which the system
lists its entries.
-/

namespace Overlay

/-- A module registered with the program under a provider label. -/
structure Registration where
  label : String
  contribution : Contribution

/-- A source of contributions. -/
inductive Discovery where
  /-- A source that gives a fixed answer. -/
  | fixed (answer : Except DiscoveryFault (List Contribution))
  /-- The modules registered with the program. -/
  | registered (registrations : List Registration)
  /-- The manifests in the folders below a directory. -/
  | directory (path : String)
  /-- Several sources, one after the other. -/
  | chained (sources : List Discovery)

/-- A manifest and the path of its file. -/
structure FoundManifest where
  path : String
  manifest : Manifest

namespace Discovery

open Journaled

/-- The name of the file that describes a module. -/
def manifestFile : String := "module.toml"

/-- A path below a directory. -/
def join (directory name : String) : String :=
  if directory.endsWith "/" then directory ++ name else directory ++ "/" ++ name

/-- Entries in ascending order of their names. -/
def byName (entries : FileTree.Entries) : FileTree.Entries :=
  entries.mergeSort fun left right => left.1 ≤ right.1

/-- The manifest in a file. -/
def readManifest (node : FileTree) : Except ManifestFault Manifest :=
  match node.text with
  | .ok text => Manifest.parse text
  | .error fault => .error (.unreadable fault)

/-- The manifest at a path, if it is one and obeys the rules. -/
def acceptManifest (path : String) (node : FileTree) :
    Journaled (Except DiscoveryFault FoundManifest) :=
  match readManifest node with
  | .error fault => pure (.error (.manifest path fault.message))
  | .ok manifest => do
      match ← manifest.check with
      | [] => pure (.ok ⟨path, manifest⟩)
      | problems =>
          pure (.error (.manifest path
            ("; ".intercalate (problems.map ManifestProblem.message))))

/-- The node of the manifest in a folder, if the path of one leads there. -/
def manifestIn? (folder : String) (entries : FileTree.Entries) : Option FileTree :=
  if FileSystem.isPath (join folder manifestFile) then FileTree.child? manifestFile entries
  else none

/-- The manifests in the folders among some entries, up to the first that is not
acceptable.  A folder without a manifest is passed over, and so is one that no path
leads to because the path would be too long. -/
def scan (directory : String) : FileTree.Entries →
    Journaled (Except DiscoveryFault (List FoundManifest))
  | [] => pure (.ok [])
  | (_, .file _) :: rest => scan directory rest
  | (name, .folder inner) :: rest => do
      let folder := join directory name
      if !FileSystem.isPath folder then scan directory rest
      else
        match manifestIn? folder inner with
        | none =>
            log .debug
              ("No " ++ manifestFile ++ " found in " ++ Text.quoted folder ++ ", skipping")
            scan directory rest
        | some node =>
            match ← acceptManifest (join folder manifestFile) node with
            | .error fault => pure (.error fault)
            | .ok found => do
                match ← scan directory rest with
                | .error fault => pure (.error fault)
                | .ok others => pure (.ok (found :: others))

/-- The manifests below a directory, in the order of their folders' names.  A
directory that does not exist has none. -/
def manifests (files : FileSystem) (directory : String) :
    Journaled (Except DiscoveryFault (List FoundManifest)) := do
  log .info ("Discovering modules in " ++ Text.quoted directory)
  if files.isPresent directory then
    match files.list directory with
    | .error fault => pure (.error (.directory directory (.system fault)))
    | .ok entries => do
        match ← scan directory (byName entries) with
        | .error fault => pure (.error fault)
        | .ok found => do
            log .info s!"Discovered {found.length} modules"
            pure (.ok found)
  else
    log .debug ("Modules directory does not exist: " ++ Text.quoted directory)
    pure (.ok [])

/-- The provider of the modules below a directory. -/
def directoryProvider (directory : String) : String := "manifest:" ++ directory

/-- What a manifest below a directory contributes. -/
def contributionOf (directory : String) (found : FoundManifest) :
    Except DiscoveryFault Contribution :=
  match found.manifest.contribute with
  | .ok contribution => .ok (contribution.orProvider (directoryProvider directory))
  | .error fault => .error (.manifest found.path fault.message)

/-- The contributions that the manifests below a directory describe. -/
def fromDirectory (files : FileSystem) (directory : String) :
    Journaled (Except DiscoveryFault (List Contribution)) := do
  match ← manifests files directory with
  | .error fault => pure (.error fault)
  | .ok found => pure (found.mapM (contributionOf directory))

/-- Registered modules in the order of their provider labels. -/
def byLabel (registrations : List Registration) : List Registration :=
  registrations.mergeSort fun left right => left.label ≤ right.label

/-- The contributions of the modules registered with the program. -/
def fromRegistrations (registrations : List Registration) :
    Journaled (List Contribution) := do
  let found := (byLabel registrations).map fun each => each.contribution.orProvider each.label
  log .debug s!"Found {found.length} registered auto-load modules"
  pure found

mutual

/-- Asks a source. -/
def run (files : FileSystem) : Discovery → Journaled (Except DiscoveryFault (List Contribution))
  | .fixed answer => pure answer
  | .registered registrations => do pure (.ok (← fromRegistrations registrations))
  | .directory path => fromDirectory files path
  | .chained sources => runAll files sources

/-- Asks sources in order, up to the first that fails. -/
def runAll (files : FileSystem) :
    List Discovery → Journaled (Except DiscoveryFault (List Contribution))
  | [] => pure (.ok [])
  | source :: rest => do
      match ← run files source with
      | .error fault => pure (.error fault)
      | .ok found => do
          match ← runAll files rest with
          | .error fault => pure (.error fault)
          | .ok others => pure (.ok (found ++ others))

end

/-- How many of the sources are asked before one fails or all have answered. -/
def asked (files : FileSystem) : List Discovery → Nat
  | [] => 0
  | source :: rest =>
      match (run files source).value with
      | .error _ => 1
      | .ok _ => 1 + asked files rest

end Discovery

end Overlay
