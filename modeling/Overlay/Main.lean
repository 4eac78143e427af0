import Overlay.CommandLine.Tool

/-!
# The program

The tool looks at files as a value.  The program takes that value from the system,
hands it to the tool together with the environment, and shows what the tool leaves
behind.  It reads no more than the tool can look at: the file of settings, and the
folders of the modules directory with their manifests.
-/

namespace Overlay.Program

/-- The folder of the system at a path. -/
def folderAt (path : String) : IO.FS.DirEntry := ⟨path, ""⟩

/-- A folder that shows nothing but its manifest. -/
def moduleFolder (folder : IO.FS.DirEntry) : IO FileTree := do
  let manifest : IO.FS.DirEntry := ⟨folder.path, Discovery.manifestFile⟩
  if ← manifest.path.isDir then
    return .folder [(Discovery.manifestFile, .empty)]
  match ← (IO.FS.readBinFile manifest.path).toBaseIO with
  | .ok bytes => return .folder [(Discovery.manifestFile, .file bytes)]
  | .error (.noFileOrDirectory ..) => return .empty
  | .error fault => throw fault

/-- The entries of the folder at a path. -/
def entriesAt (path : String) : IO FileTree.Entries := do
  let found ← (folderAt path).path.readDir
  found.toList.mapM fun entry => do
    if ← entry.path.isDir then
      return (entry.fileName, ← moduleFolder entry)
    else
      return (entry.fileName, .file .empty)

/-- The files with a node put at a path, if that is possible. -/
def placed (files : FileSystem) (path : String) (node : FileTree) : FileSystem :=
  match files.place path node with
  | .ok changed => changed
  | .error _ => files

/-- The paths of the folders through which a path leads. -/
def folderPaths (path : String) : List String :=
  let steps := FileSystem.steps path
  ((List.range steps.length).map fun count => "/".intercalate (steps.take count)).filter
    fun outer => !outer.isEmpty

/-- Adds a folder through which a path leads. -/
def withFolder (files : FileSystem) (path : String) : IO FileSystem := do
  if files.isPresent path then
    return files
  else if ← (folderAt path).path.isDir then
    return placed files path .empty
  else
    return files

/-- Adds what the system holds at a path. -/
def withPath (files : FileSystem) (path : String) : IO FileSystem := do
  if path.isEmpty then
    return files
  let reached ← (folderPaths path).foldlM withFolder files
  if ← (folderAt path).path.isDir then
    return placed reached path (.folder (← entriesAt path))
  match ← (IO.FS.readBinFile path).toBaseIO with
  | .ok bytes => return placed reached path (.file bytes)
  | .error _ => return reached

/-- The folder in which the program runs, without its entries. -/
def currentFolder : IO FileSystem := do
  let path := toString (← IO.currentDir)
  let current := FileSystem.plainSteps ⟨.empty, []⟩ path
  return placed ⟨.empty, current⟩ "." .empty

/-- The variables that the tool looks at. -/
def environment : IO Environment := do
  let names :=
    [Environment.autoLoadVariable, Environment.directoryVariable, Environment.filterVariable]
  let found ← names.filterMapM fun name => do
    return (← IO.getEnv name).map fun value => (name, value.toUTF8)
  return ⟨found⟩

/-- The files that the tool looks at.  The file of settings goes in last, since it
may lie in the modules directory. -/
def files (values : Environment) (arguments : List String) : IO FileSystem := do
  let start ← currentFolder
  match Arguments.read arguments with
  | .ok (.resolve found) =>
      let path := found.config.getD ""
      let configured ← withPath start path
      match Tool.loadSettings configured values found with
      | .ok settings => withPath (← withPath start settings.modules.directory) path
      | .error _ => return configured
  | _ => return start

end Overlay.Program

/-- Runs the tool on the files of the system. -/
def main (arguments : List String) : IO UInt32 := do
  let values ← Overlay.Program.environment
  let files ← Overlay.Program.files values arguments
  let outcome := Overlay.Tool.run [] files values arguments
  IO.print outcome.output
  IO.eprint outcome.errors
  return outcome.status.toUInt32
