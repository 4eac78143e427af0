import Overlay.Toml.Value

/-!
# Building tables

The statements of a document build its tables bit by bit, and what a later
statement may add to a table depends on how the table came about: by a header of
its own, because a longer header implied it, or by a dotted key.  A table with a
header of its own stands where that header stands.
-/

namespace Overlay.Toml

/-- How a table came about. -/
inductive TableKind where
  /-- By a header of its own. -/
  | header
  /-- Because a longer header leads through it. -/
  | implied
  /-- By a dotted key. -/
  | dotted
  deriving DecidableEq, Inhabited

/-- A table under construction, or something in it. -/
inductive Node where
  | value (value : Value)
  | table (kind : TableKind) (entries : List (String × Node))
  /-- An array of tables, each opened by a header in double brackets. -/
  | tables (elements : List Node)
  deriving Inhabited

/-- The entries of a table under construction. -/
abbrev Nodes := List (String × Node)

namespace Node

mutual

/-- The finished value. -/
def toValue : Node → Value
  | .value found => found
  | .table _ entries => .table (toEntries entries)
  | .tables elements => .array (toItems elements)

/-- The finished entries. -/
def toEntries : List (String × Node) → List (String × Value)
  | [] => []
  | (name, node) :: rest => (name, toValue node) :: toEntries rest

/-- The finished items. -/
def toItems : List Node → List Value
  | [] => []
  | element :: rest => toValue element :: toItems rest

end

/-- The node under a name. -/
def lookup? (name : String) : Nodes → Option Node
  | [] => none
  | (other, node) :: rest => if other = name then some node else lookup? name rest

/-- Replaces the node under a name that is present. -/
def replace (name : String) (node : Node) : Nodes → Nodes
  | [] => []
  | (other, old) :: rest =>
      if other = name then (other, node) :: rest else (other, old) :: replace name node rest

/-- Removes the node under a name. -/
def remove (name : String) (entries : Nodes) : Nodes :=
  entries.filter fun entry => entry.1 ≠ name

/-- Changes the table at the end of a path.  Tables on the way that do not exist
are made, an array of tables is entered at its last element, and a dotted key may
not lead into a table with a header of its own. -/
def changeAt (dotted : Bool) (change : TableKind → Nodes → Option Nodes) :
    (path : List String) → TableKind → Nodes → Option Nodes
  | [], kind, entries => change kind entries
  | name :: path, _, entries =>
      match lookup? name entries with
      | none => do
          let kind : TableKind := if dotted then .dotted else .implied
          let inner ← changeAt dotted change path kind []
          some (entries ++ [(name, .table kind inner)])
      | some (.value _) => none
      | some (.table kind inner) =>
          if dotted && kind == .header then none
          else do
            let inner ← changeAt dotted change path kind inner
            some (replace name (.table kind inner) entries)
      | some (.tables elements) =>
          match elements.reverse with
          | .table kind inner :: earlier => do
              let inner ← changeAt dotted change path kind inner
              some (replace name (.tables (earlier.reverse ++ [.table kind inner])) entries)
          | _ => none

/-- Adds a new entry to a table. -/
def addEntry (name : String) (added : Value) (entries : Nodes) : Option Nodes :=
  match lookup? name entries with
  | none => some (entries ++ [(name, .value added)])
  | some _ => none

/-- Adds the value of an assignment to a table with a header of its own.  A dotted
key adds to tables made by dotted keys only. -/
def assign (entries : Nodes) (path : List String) (name : String) (added : Value) :
    Option Nodes :=
  changeAt true
    (fun kind inner =>
      if (kind == .dotted) == path.isEmpty then none else addEntry name added inner)
    path .header entries

/-- Performs assignments in order. -/
def assignAll (entries : Nodes) : List ((List String × String) × Value) → Option Nodes
  | [] => some entries
  | ((path, name), added) :: rest => do
      let extended ← assign entries path name added
      assignAll extended rest

/-- Adds the table of a header.  An implied table gets its header and moves to the
place where the header stands. -/
def openTable (name : String) (assignments : List ((List String × String) × Value))
    (entries : Nodes) : Option Nodes :=
  match lookup? name entries with
  | none => do
      let inner ← assignAll [] assignments
      some (entries ++ [(name, .table .header inner)])
  | some (.table .implied inner) => do
      let inner ← assignAll inner assignments
      some (remove name entries ++ [(name, .table .header inner)])
  | some _ => none

/-- Adds an element to an array of tables. -/
def openElement (name : String) (assignments : List ((List String × String) × Value))
    (entries : Nodes) : Option Nodes := do
  let inner ← assignAll [] assignments
  match lookup? name entries with
  | none => some (entries ++ [(name, .tables [.table .header inner])])
  | some (.tables elements) =>
      some (replace name (.tables (elements ++ [.table .header inner])) entries)
  | some _ => none

end Node

end Overlay.Toml
