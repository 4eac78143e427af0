import Overlay.Fault

/-!
# Trees of files

What a program sees of the file system, as a value: folders with their entries in
whatever order the system lists them, and the folder in which the program runs.
A path that goes on after a name, be it with a mere slash, takes that name for a
folder.  The system bounds the length of a path and of the names in it.
-/

namespace Overlay

/-- A file with its bytes, or a folder with its entries. -/
inductive FileTree where
  | file (bytes : ByteArray)
  | folder (entries : List (String × FileTree))
  deriving Inhabited

namespace FileTree

/-- The entries of a folder. -/
abbrev Entries := List (String × FileTree)

/-- The folder without entries. -/
def empty : FileTree := .folder []

/-- The greatest length of a name, in bytes of UTF-8. -/
def nameLimit : Nat := 255

/-- The entry with a name. -/
def child? (name : String) : Entries → Option FileTree
  | [] => none
  | (other, node) :: rest => if other = name then some node else child? name rest

/-- Gives a name its new node where it stands, or appends it. -/
def putEntry (name : String) (node : FileTree) : Entries → Entries
  | [] => [(name, node)]
  | (other, old) :: rest =>
      if other = name then (other, node) :: rest else (other, old) :: putEntry name node rest

/-- The text of the node, if it is a file with text in it. -/
def text : FileTree → Except ReadFault String
  | .folder _ => .error .isDirectory
  | .file bytes =>
      match String.fromUTF8? bytes with
      | some text => .ok text
      | none => .error .notText

/-- Follows the steps of a path.  An empty step stays where it is, as `.` does.
`above` holds the folders on the way, the innermost first; above the outermost
folder there is only that folder. -/
def walk : (above : List FileTree) → FileTree → List String → Except ReadFault FileTree
  | _, node, [] => .ok node
  | _, .file _, _ :: _ => .error .notDirectory
  | above, .folder entries, step :: rest =>
      if step = "" ∨ step = "." then walk above (.folder entries) rest
      else if step = ".." then
        match above with
        | [] => walk [] (.folder entries) rest
        | outer :: further => walk further outer rest
      else
        match child? step entries with
        | some node => walk (.folder entries :: above) node rest
        | none => .error (if step.utf8ByteSize ≤ nameLimit then .notFound else .tooLong)

/-- Puts a node where a path of plain names leads, making folders on the way. -/
def putAt (node : FileTree) : List String → FileTree → Except ReadFault FileTree
  | [], _ => .ok node
  | _ :: _, .file _ => .error .notDirectory
  | name :: rest, .folder entries => do
      let inner ← putAt node rest ((child? name entries).getD empty)
      .ok (.folder (putEntry name inner entries))

end FileTree

/-- Everything below the outermost folder, and the names that lead to the folder in
which the program runs. -/
structure FileSystem where
  root : FileTree
  current : List String
  deriving Inhabited

namespace FileSystem

/-- The names between the slashes of a path. -/
def steps (path : String) : List String := path.splitOn "/"

/-- The steps of a path from the outermost folder. -/
def stepsFromRoot (files : FileSystem) (path : String) : List String :=
  if path.startsWith "/" then steps path else files.current ++ steps path

/-- The greatest length of a path, in bytes of UTF-8. -/
def pathLimit : Nat := 4095

/-- Why a text is no path at all, whatever files there are. -/
def pathFault? (path : String) : Option ReadFault :=
  if path.isEmpty then some .notFound
  else if path.contains '\x00' then some .interrupted
  else if pathLimit < path.utf8ByteSize then some .tooLong
  else none

/-- Whether a text can be a path. -/
def isPath (path : String) : Bool := (pathFault? path).isNone

/-- The node at a path. -/
def lookup (files : FileSystem) (path : String) : Except ReadFault FileTree :=
  match pathFault? path with
  | some fault => .error fault
  | none => files.root.walk [] (files.stepsFromRoot path)

/-- Whether a path leads somewhere. -/
def isPresent (files : FileSystem) (path : String) : Bool := (files.lookup path).isOk

/-- The text of the file at a path. -/
def readText (files : FileSystem) (path : String) : Except ReadFault String := do
  let node ← files.lookup path
  node.text

/-- The entries of the folder at a path. -/
def list (files : FileSystem) (path : String) : Except ReadFault FileTree.Entries := do
  match ← files.lookup path with
  | .folder entries => .ok entries
  | .file _ => .error .notDirectory

/-- The names that lead to a path without detours.  A step outwards takes the last
name back. -/
def plainSteps (files : FileSystem) (path : String) : List String :=
  ((files.stepsFromRoot path).foldl
    (fun names step =>
      if step = "" ∨ step = "." then names
      else if step = ".." then names.drop 1
      else step :: names) []).reverse

/-- Puts a node at a path, making folders on the way. -/
def place (files : FileSystem) (path : String) (node : FileTree) :
    Except ReadFault FileSystem := do
  let root ← FileTree.putAt node (files.plainSteps path) files.root
  .ok { files with root }

/-- Writes a new file at a path.  The folder it goes into has to be there. -/
def createText (files : FileSystem) (path text : String) : Except ReadFault FileSystem :=
  match (files.stepsFromRoot path).reverse with
  | [] => .error .notFound
  | name :: outer =>
      if name = "" ∨ name = "." ∨ name = ".." then .error .notFound
      else if FileTree.nameLimit < name.utf8ByteSize then .error .tooLong
      else
        match files.root.walk [] outer.reverse with
        | .ok (.folder _) => files.place path (.file text.toUTF8)
        | .ok (.file _) => .error .notDirectory
        | .error fault => .error fault

/-- Writes a file at a path, in place of a file that is there.  No folder may have
its name. -/
def writeText (files : FileSystem) (path text : String) : Except ReadFault FileSystem :=
  match pathFault? path with
  | some fault => .error fault
  | none =>
      match files.lookup path with
      | .ok (.folder _) => .error .isDirectory
      | .ok (.file _) => files.place path (.file text.toUTF8)
      | .error _ => files.createText path text

end FileSystem

end Overlay
