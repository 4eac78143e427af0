import Overlay.Roster

/-!
# The override graph

The nodes are the retained modules, numbered in roster order.  An edge leads from
a module to each retained module that it declares to override.  Every edge is
entered in two tables at once, which makes both directions easy to follow.
Overrides of modules that are not on the roster have no edge.
-/

namespace Overlay

/-- Retained modules and the overrides among them. -/
structure OverrideGraph where
  nodes : List Descriptor
  /-- For each node the nodes it overrides, in order of declaration. -/
  overridden : List (List Nat)
  /-- For each node the nodes that override it, in ascending order. -/
  overriders : List (List Nat)
  deriving Inhabited

namespace OverrideGraph

/-- The number of nodes. -/
def size (graph : OverrideGraph) : Nat := graph.nodes.length

/-- Whether there is no node. -/
def isEmpty (graph : OverrideGraph) : Bool := graph.nodes.isEmpty

/-- The nodes that a node overrides, in order of declaration. -/
def successors (graph : OverrideGraph) (index : Nat) : List Nat :=
  graph.overridden[index]?.getD []

/-- The nodes that override a node, in ascending order. -/
def incoming (graph : OverrideGraph) (index : Nat) : List Nat :=
  graph.overriders[index]?.getD []

/-- Whether some node overrides the node. -/
def isOverridden (graph : OverrideGraph) (index : Nat) : Bool :=
  !(graph.incoming index).isEmpty

/-- The number of edges. -/
def edgeCount (graph : OverrideGraph) : Nat := graph.overridden.flatten.length

/-- The name of a node. -/
def name (graph : OverrideGraph) (index : Nat) : String :=
  (graph.nodes[index]?.map Descriptor.name).getD ""

/-- The nodes that a module of the roster overrides. -/
def targets (roster : Roster) (descriptor : Descriptor) : List Nat :=
  descriptor.overrides.elements.filterMap fun target => roster.index? target.key

/-- The edges of a roster, module after module in the order of declaration. -/
def edges (roster : Roster) : List (Nat × Nat) :=
  roster.elements.zipIdx.flatMap fun (descriptor, source) =>
    (targets roster descriptor).map (source, ·)

/-- Enters an item at the end of a row. -/
def enter (rows : List (List Nat)) (entry : Nat × Nat) : List (List Nat) :=
  rows.modify entry.1 (· ++ [entry.2])

/-- The tables of a graph while edges are entered in them. -/
structure EdgeTables where
  overridden : List (List Nat)
  overriders : List (List Nat)

/-- Enters an edge in both tables. -/
def EdgeTables.add (tables : EdgeTables) (edge : Nat × Nat) : EdgeTables where
  overridden := enter tables.overridden edge
  overriders := enter tables.overriders edge.swap

/-- The graph of a roster. -/
def ofRoster (roster : Roster) : OverrideGraph :=
  let blank := List.replicate roster.size []
  let tables := (edges roster).foldl EdgeTables.add ⟨blank, blank⟩
  { nodes := roster.elements
    overridden := tables.overridden
    overriders := tables.overriders }

/-- What becomes of one declared override. -/
def overrideEvent (roster : Roster) (descriptor : Descriptor) (target : Identity) : Event :=
  match roster.find? target.key with
  | some found => .overrideApplied descriptor.name descriptor.provider found.name
  | none => .ignoredOverride descriptor.name target.defaultName

open Journaled

/-- The graph of a roster, with an event for each declared override. -/
def build (roster : Roster) : Journaled OverrideGraph := do
  for descriptor in roster.elements do
    for target in descriptor.overrides.elements do
      emit (overrideEvent roster descriptor target)
  let graph := ofRoster roster
  log .debug
    s!"Built override graph with {graph.size} nodes and {graph.edgeCount} edges"
  pure graph

end OverrideGraph

end Overlay
