import Overlay.Fault
import Overlay.OverrideGraph

/-!
# At most one overrider for each module

Two modules that override the same one would leave open which of them takes its
place.  The check names the first module in roster order to which this happens.
-/

namespace Overlay.OverrideGraph

/-- The module at a node, as an overrider. -/
def overrider (graph : OverrideGraph) (index : Nat) : Overrider where
  name := graph.name index
  provider := (graph.nodes[index]?.map Descriptor.provider).getD ""

/-- The fault at a node, if more than one module overrides it.  The overriders are named in
roster order. -/
def doubleOverrideAt? (graph : OverrideGraph) (index : Nat) : Option DoubleOverride :=
  match graph.incoming index with
  | first :: second :: rest =>
      let target := graph.overrider index
      let ordered := (first :: second :: rest).mergeSort fun left right => left ≤ right
      some {
        target := target.name
        targetProvider := target.provider
        overriders := ordered.map graph.overrider }
  | _ => none

/-- The fault at the first node that more than one module overrides. -/
def doubleOverride? (graph : OverrideGraph) : Option DoubleOverride :=
  (List.range graph.size).findSome? graph.doubleOverrideAt?

/-- Accepts a graph in which each node has at most one overrider. -/
def checkSingleOverride (graph : OverrideGraph) : Journaled (Except DoubleOverride Unit) :=
  match graph.doubleOverride? with
  | some fault => pure (.error fault)
  | none => do
      Journaled.log .debug "Override graph passed single-override check"
      pure (.ok ())

end Overlay.OverrideGraph
